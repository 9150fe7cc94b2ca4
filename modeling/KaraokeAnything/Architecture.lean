import KaraokeAnything.Library.Substitution
import KaraokeAnything.Python

/-! app/audio_trombone/tools/prepare_mdx23c_architecture.py: the one import of a downloaded
module is replaced by the function it imports. Files are the text they hold; what is not
UTF-8 is left out. -/
namespace KaraokeAnything.Architecture
open Python Substitution

inductive LineSep where
  | posix
  | windows
  deriving DecidableEq, Repr

def LineSep.text : LineSep → List Char
  | .posix => ['\n']
  | .windows => ['\r', '\n']

def importLine : List Char := "from utils.model_utils import prefer_target_instrument".toList

def expectedImport : List Char := importLine ++ ['\n']

def localHelper : List Char :=
  "def prefer_target_instrument(config):\n".toList ++
  "    if getattr(config.training, \"target_instrument\", None):\n".toList ++
  "        return [config.training.target_instrument]\n".toList ++
  "    return config.training.instruments\n".toList

/- `path.read_text` and `path.write_text` open the file in text mode: reading makes every
end of a line a newline, writing makes every newline the end of a line of the host. -/
def readText : List Char → List Char
  | '\r' :: '\n' :: rest => '\n' :: readText rest
  | '\r' :: rest => '\n' :: readText rest
  | item :: rest => item :: readText rest
  | [] => []

def writeText (lineSep : LineSep) (text : List Char) : List Char :=
  text.flatMap (fun item => if item = '\n' then lineSep.text else [item])

def unexpected (occurrences : Nat) : PyError := .runtimeError
  s!"expected exactly one MDX23C prefer_target_instrument import, found {occurrences}"

def prepare (lineSep : LineSep) (file : List Char) : Except PyError (List Char) :=
  let source := readText file
  let occurrences := count expectedImport 0 source
  if occurrences ≠ 1 then .error (unexpected occurrences)
  else .ok (writeText lineSep (replaceFirst expectedImport (localHelper ++ ['\n']) source))

section Texts
variable {text : List Char} {lineSep : LineSep}

theorem readPlain {item : Char} (plain : item ≠ '\r') (rest : List Char) :
    readText (item :: rest) = item :: readText rest := by
  simp [readText, plain]

theorem readNewlines (file : List Char) : '\r' ∉ readText file := by
  fun_induction readText file with
  | case1 rest ih => simpa using ih
  | case2 rest other ih => simpa using ih
  | case3 item rest both single ih =>
    refine List.not_mem_cons_of_ne_of_not_mem (fun same => ?_) ih
    exact single same.symm
  | case4 => exact List.not_mem_nil

theorem readWritten (lineSep : LineSep) (plain : '\r' ∉ text) :
    readText (writeText lineSep text) = text := by
  induction text with
  | nil => rfl
  | cons item rest ih =>
    obtain ⟨first, others⟩ := List.ne_and_not_mem_of_not_mem_cons plain
    have again := ih others
    rw [writeText, List.flatMap_cons, ← writeText]
    split
    · rename_i newline
      cases newline
      cases lineSep with
      | posix => exact (readPlain (by decide) _).trans (congrArg _ again)
      | windows =>
        change '\n' :: readText (writeText .windows rest) = _
        rw [again]
    · exact (readPlain (Ne.symm first) _).trans (congrArg _ again)

end Texts

section Once
variable {lineSep : LineSep} {file before after : List Char}

theorem importEnds : '\n' ∉ importLine := by decide +kernel

theorem importSome : importLine ≠ [] := by decide +kernel

theorem expectedSome : expectedImport ≠ [] := List.concat_ne_nil '\n' importLine

theorem helperApart : ∀ line rest, localHelper ++ ['\n'] = line ++ '\n' :: rest →
    line ≠ [] ∧ line.getLast? ≠ importLine.getLast? :=
  linesApart (by decide +kernel) (by decide +kernel)

theorem helperPlain : '\r' ∉ localHelper ++ ['\n'] := by decide +kernel

structure Single (source before after : List Char) : Prop where
  split : source = before ++ expectedImport ++ after
  alone : ∀ before' after', source = before' ++ expectedImport ++ after' → before' = before

theorem singleFront {source : List Char} (single : Single source before after) :
    ¬ expectedImport <:+: before := by
  rintro ⟨head, tail, rfl⟩
  have same := single.alone head (tail ++ expectedImport ++ after) (by rw [single.split]; simp)
  have length := congrArg List.length same
  have some := List.length_pos_iff.mpr expectedSome
  simp only [List.length_append] at length
  omega

theorem singleBack {source : List Char} (single : Single source before after) :
    ¬ expectedImport <:+: after := by
  rintro ⟨head, tail, rfl⟩
  have same := single.alone (before ++ expectedImport ++ head) tail (by rw [single.split]; simp)
  have length := congrArg List.length same
  have some := List.length_pos_iff.mpr expectedSome
  simp only [List.length_append] at length
  omega

theorem singleFirst {source : List Char} (single : Single source before after) :
    First expectedImport source before after := by
  have occurs : expectedImport <:+: source := ⟨before, after, single.split.symm⟩
  obtain ⟨front, back, found⟩ := firstOccurrence expectedSome occurs
  have same := single.alone front back found.split
  subst same
  have behind : back = after := List.append_cancel_left (found.split.symm.trans single.split)
  exact behind ▸ found

theorem singleCounted {source : List Char} : count expectedImport 0 source = 1 ↔
    ∃ before after, Single source before after := by
  constructor
  · intro one
    have occurs : expectedImport <:+: source := by
      by_contra none
      rw [(countNone expectedSome).mpr none] at one
      contradiction
    obtain ⟨before, after, found⟩ := firstOccurrence expectedSome occurs
    have none : ¬ expectedImport <:+: after :=
      (countNone expectedSome).mp (Nat.succ.inj (found.counted.symm.trans one))
    exact ⟨before, after, found.split, fun before' after' other =>
      occurrenceAlone importEnds (found.split.symm.trans other) (found.first _ _ other) none⟩
  · rintro ⟨before, after, single⟩
    rw [(singleFirst single).counted, (countNone expectedSome).mpr (singleBack single)]

theorem preparedSource {out : List Char} : prepare lineSep file = .ok out ↔
    ∃ before after, Single (readText file) before after ∧
      out = writeText lineSep (before ++ (localHelper ++ ['\n']) ++ after) := by
  rw [prepare]
  constructor
  · intro prepared
    split at prepared
    · contradiction
    · rename_i one
      obtain ⟨before, after, single⟩ := singleCounted.mp (not_not.mp one)
      refine ⟨before, after, single, ?_⟩
      rw [← Except.ok.inj prepared, (singleFirst single).replaced]
  · rintro ⟨before, after, single, rfl⟩
    have one : count expectedImport 0 (readText file) = 1 :=
      singleCounted.mpr ⟨before, after, single⟩
    rw [if_neg (not_not.mpr one), (singleFirst single).replaced]

theorem preparedRefuses {e : PyError} (refused : prepare lineSep file = .error e) :
    ∃ found, found ≠ 1 ∧ e = unexpected found ∧
      (found = 0 ↔ ¬ expectedImport <:+: readText file) := by
  rw [prepare] at refused
  split at refused
  · rename_i other
    exact ⟨_, other, (Except.error.inj refused).symm, countNone expectedSome⟩
  · contradiction

theorem singlePlain (single : Single (readText file) before after) :
    '\r' ∉ before ++ (localHelper ++ ['\n']) ++ after := by
  have plain := readNewlines file
  have helper := helperPlain
  rw [single.split] at plain
  simp only [List.mem_append, not_or] at plain helper ⊢
  exact ⟨⟨plain.1.1, helper⟩, plain.2⟩

theorem preparedFresh {out : List Char} (prepared : prepare lineSep file = .ok out) :
    ¬ expectedImport <:+: readText out := by
  obtain ⟨before, after, single, rfl⟩ := preparedSource.mp prepared
  rw [readWritten lineSep (singlePlain single)]
  exact freshBetween importEnds importSome (singleFront single) (singleBack single)
    ⟨localHelper, rfl⟩ helperApart

theorem freshRefused (fresh : ¬ expectedImport <:+: readText file) :
    prepare lineSep file = .error (unexpected 0) := by
  have none : count expectedImport 0 (readText file) = 0 := (countNone expectedSome).mpr fresh
  rw [prepare, none]
  rfl

theorem preparedOnce (lineSep : LineSep) (file : List Char) :
    (∀ out, prepare lineSep file = .ok out ↔ ∃ before after,
      Single (readText file) before after ∧
      out = writeText lineSep (before ++ (localHelper ++ ['\n']) ++ after) ∧
      readText out = before ++ (localHelper ++ ['\n']) ++ after) ∧
    (∀ e, prepare lineSep file = .error e → ∃ found, found ≠ 1 ∧ e = unexpected found ∧
      (found = 0 ↔ ¬ expectedImport <:+: readText file)) ∧
    ∀ out, prepare lineSep file = .ok out → ¬ expectedImport <:+: readText out ∧
      ∀ other, prepare other out = .error (unexpected 0) := by
  refine ⟨fun out => ⟨fun prepared => ?_, ?_⟩, fun e => preparedRefuses, fun out prepared => ?_⟩
  · obtain ⟨before, after, single, rfl⟩ := preparedSource.mp prepared
    exact ⟨before, after, single, rfl, readWritten lineSep (singlePlain single)⟩
  · rintro ⟨before, after, single, written, _⟩
    exact preparedSource.mpr ⟨before, after, single, written⟩
  · have fresh := preparedFresh prepared
    exact ⟨fresh, fun other => freshRefused fresh⟩

example : prepare .windows (importLine ++ ['\r', '\n', 'x']) =
    .ok (writeText .windows (localHelper ++ ['\n', 'x'])) := by
  decide +kernel

end Once

end KaraokeAnything.Architecture
