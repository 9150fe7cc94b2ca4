import Mathlib.Data.List.Infix

/-! Occurrences of a pattern in a list as a scan from the left finds them: how many it
counts, what replacing the first one makes, and when that leaves none. -/
namespace Substitution
variable {α : Type}

section Scans
variable [DecidableEq α] {pattern text : List α}

/- The occurrences that do not overlap; `skip` items still belong to the last one. -/
def count (pattern : List α) : Nat → List α → Nat
  | _, [] => 0
  | skip + 1, _ :: rest => count pattern skip rest
  | 0, item :: rest =>
    if pattern <+: item :: rest then count pattern (pattern.length - 1) rest + 1
    else count pattern 0 rest

def replaceFirst (pattern new : List α) : List α → List α
  | [] => []
  | item :: rest =>
    if pattern <+: item :: rest then new ++ (item :: rest).drop pattern.length
    else item :: replaceFirst pattern new rest

theorem countSkip (pattern : List α) (skip : Nat) (text : List α) :
    count pattern skip text = count pattern 0 (text.drop skip) := by
  induction text generalizing skip with
  | nil => rw [List.drop_nil, count, count]
  | cons item rest ih =>
    cases skip with
    | zero => rfl
    | succ skip => rw [count, List.drop_succ_cons, ih]

theorem countNone (some : pattern ≠ []) : count pattern 0 text = 0 ↔ ¬ pattern <:+: text := by
  induction text with
  | nil => simp [count, some]
  | cons item rest ih =>
    rw [count, List.infix_cons_iff, not_or]
    split
    · simp_all
    · rw [ih]
      simp_all

structure First (pattern text before after : List α) : Prop where
  split : text = before ++ pattern ++ after
  first : ∀ before' after', text = before' ++ pattern ++ after' → before.length ≤ before'.length
  counted : count pattern 0 text = count pattern 0 after + 1
  replaced : ∀ new, replaceFirst pattern new text = before ++ new ++ after

theorem firstOccurrence (some : pattern ≠ []) (occurs : pattern <:+: text) :
    ∃ before after, First pattern text before after := by
  induction text with
  | nil => exact absurd (List.infix_nil.mp occurs) some
  | cons item rest ih =>
    by_cases now : pattern <+: item :: rest
    · obtain ⟨after, split⟩ := now
      have long := List.length_pos_iff.mpr some
      have behind : (item :: rest).drop pattern.length = after := by rw [← split, List.drop_left]
      have skipped : rest.drop (pattern.length - 1) = after := by
        rw [← behind, ← Nat.sub_add_cancel long, List.drop_succ_cons, Nat.add_sub_cancel]
      refine ⟨[], after, split.symm, fun before' after' other => Nat.zero_le _, ?_, fun new => ?_⟩
      · rw [count, if_pos ⟨after, split⟩, countSkip, skipped]
      · rw [replaceFirst, if_pos ⟨after, split⟩, behind]
        rfl
    · have later : pattern <:+: rest := (List.infix_cons_iff.mp occurs).resolve_left now
      obtain ⟨before, after, found⟩ := ih later
      refine ⟨item :: before, after, ?_, ?_, ?_, fun new => ?_⟩
      · rw [found.split]
        rfl
      · intro before' after' other
        cases before' with
        | nil => exact absurd ⟨after', other.symm⟩ now
        | cons head before' =>
          exact Nat.succ_le_succ (found.first before' after' (List.cons.inj other).2)
      · rw [count, if_neg now, found.counted]
      · rw [replaceFirst, if_neg now, found.replaced]
        rfl

end Scans

section Lines
variable {body before after before' after' inserted : List α} {stop : α}

theorem occurrenceAlone (ends : stop ∉ body)
    (same : before ++ (body ++ [stop]) ++ after = before' ++ (body ++ [stop]) ++ after')
    (first : before.length ≤ before'.length) (none : ¬ body ++ [stop] <:+: after) :
    before' = before := by
  rw [List.append_assoc before, List.append_assoc before'] at same
  rcases List.append_eq_append_iff.mp same with ⟨gap, rfl, rest⟩ | ⟨gap, rfl, _⟩
  · rcases List.append_eq_append_iff.mp rest with ⟨tail, rfl, behind⟩ | ⟨tail, inside, behind⟩
    · exact absurd ⟨tail, after', by rw [behind, List.append_assoc]⟩ none
    · rcases List.eq_nil_or_concat tail with rfl | ⟨front, last, rfl⟩
      · exact absurd ⟨[], after', by simpa using behind⟩ none
      · rw [List.concat_eq_append, ← List.append_assoc] at inside
        obtain ⟨whole, stops⟩ := List.append_inj' inside rfl
        cases List.singleton_inj.mp stops
        -- Were the gap not empty, the end of the first would stand inside the second.
        rcases gap with _ | ⟨item, gap⟩
        · exact List.append_nil before
        · rw [List.concat_eq_append, List.append_assoc, List.append_assoc] at behind
          rcases List.append_eq_append_iff.mp behind with ⟨more, long, _⟩ | ⟨more, short, stopped⟩
          · have lengths := congrArg List.length whole
            rw [long] at lengths
            simp only [List.length_append, List.length_cons] at lengths
            omega
          · cases more with
            | nil =>
              have lengths := congrArg List.length (whole.symm.trans short)
              simp only [List.length_append, List.length_cons, List.length_nil] at lengths
              omega
            | cons head more =>
              cases (List.cons.inj stopped).1
              exact absurd (short ▸ List.mem_append_right front List.mem_cons_self) ends
  · rw [List.length_append] at first
    have empty : gap = [] := List.length_eq_zero_iff.mp (by omega)
    rw [empty, List.append_nil]

theorem pairMember (front : List α) (first second : α) (rest : List α) :
    (first, second) ∈
      (front ++ first :: second :: rest).zip (front ++ first :: second :: rest).tail := by
  induction front with
  | nil => exact List.mem_cons_self
  | cons item front ih =>
    rw [List.cons_append, List.tail_cons]
    generalize front ++ first :: second :: rest = text at ih
    cases text with
    | nil => contradiction
    | cons head text => exact List.mem_cons_of_mem _ ih

theorem linesApart {text : List α} {last : Option α} (starts : text.head? ≠ some stop)
    (pairs : ∀ pair ∈ text.zip text.tail, pair.2 = stop → some pair.1 ≠ last) :
    ∀ line rest, text = line ++ stop :: rest → line ≠ [] ∧ line.getLast? ≠ last := by
  rintro line rest rfl
  rcases List.eq_nil_or_concat line with rfl | ⟨front, item, rfl⟩
  · exact absurd rfl starts
  · rw [List.concat_eq_append] at pairs ⊢
    refine ⟨List.concat_ne_nil item front, ?_⟩
    rw [List.getLast?_concat]
    refine pairs (item, stop) ?_ rfl
    rw [List.append_assoc]
    exact pairMember front item stop rest

theorem bodyEnds {front lines : List α} (ends : stop ∉ body) (some : body ≠ []) :
    front ++ body ≠ lines ++ [stop] := by
  intro same
  have last := congrArg List.getLast? same
  rw [List.getLast?_append_of_ne_nil front some, List.getLast?_concat] at last
  exact ends (List.mem_of_getLast? last)

/- Between two texts without the pattern stands one whose ends of lines are all of other
lines: the pattern is nowhere in the whole. -/
theorem freshBetween (ends : stop ∉ body) (some : body ≠ []) (front : ¬ body ++ [stop] <:+: before)
    (back : ¬ body ++ [stop] <:+: after) (closed : ∃ lines, inserted = lines ++ [stop])
    (apart : ∀ line rest, inserted = line ++ stop :: rest →
      line ≠ [] ∧ line.getLast? ≠ body.getLast?) :
    ¬ body ++ [stop] <:+: before ++ inserted ++ after := by
  rintro ⟨head, tail, whole⟩
  have split : (head ++ body) ++ stop :: tail = before ++ (inserted ++ after) := by
    rw [← List.append_assoc before, ← whole]
    simp
  rcases List.append_eq_append_iff.mp split with ⟨gap, inFront, rest⟩ | ⟨gap, ahead, rest⟩
  · -- The end of the occurrence stands in `before`, or right behind it.
    rcases gap with _ | ⟨item, gap⟩
    · cases inserted with
      | nil =>
        obtain ⟨lines, empty⟩ := closed
        exact absurd empty.symm (List.concat_ne_nil stop lines)
      | cons item more =>
        cases (List.cons.inj rest).1
        exact (apart [] more rfl).1 rfl
    · cases (List.cons.inj rest).1
      exact front ⟨head, gap, by rw [inFront]; simp⟩
  · rcases List.append_eq_append_iff.mp rest with ⟨more, long, behind⟩ | ⟨more, inside, behind⟩
    · obtain ⟨lines, rfl⟩ := closed
      rw [long, ← List.append_assoc, ← List.append_assoc] at ahead
      rcases List.append_eq_append_iff.mp ahead with ⟨line, early, short⟩ | ⟨line, late, short⟩
      · by_cases empty : line = []
        · rw [empty, List.nil_append] at short
          exact back ⟨[], tail, by rw [behind, short]; simp⟩
        · have inside : stop ∉ line := fun member =>
            ends (short ▸ List.mem_append_left more member)
          exact bodyEnds inside empty early.symm
      · exact back ⟨line, tail, by rw [behind, short]; simp⟩
    · rcases more with _ | ⟨item, more⟩
      · obtain ⟨lines, rfl⟩ := closed
        rw [List.append_nil] at inside
        rw [← inside, ← List.append_assoc] at ahead
        exact bodyEnds ends some ahead
      · cases (List.cons.inj behind).1
        obtain ⟨nonempty, differs⟩ := apart gap more inside
        refine differs ?_
        have last := congrArg List.getLast? ahead
        rw [List.getLast?_append_of_ne_nil _ some, List.getLast?_append_of_ne_nil _ nonempty] at last
        exact last.symm

end Lines

end Substitution
