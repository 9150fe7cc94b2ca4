import KaraokeAnything.Library.Dict
import KaraokeAnything.Python
import Mathlib.Data.Finset.Insert
import Mathlib.Data.Finset.Dedup

/-! The checkpoint normalisation of app/audio_trombone/tools/validate_mdx23c.py. What a
loaded object holds, if it is a `Mapping`, is `mappingOf` of it. -/
namespace KaraokeAnything.Checkpoint
open Dictionaries Python

/- A key of a Python mapping: a string, or another hashable object. -/
inductive Key (H : Type) where
  | text (key : String)
  | other (key : H)
  deriving DecidableEq

inductive CheckpointError where
  | typeError (message : String)
  | valueError (message : String)
  | keyError (key : String)
  deriving DecidableEq, Repr

def supportedWrappers : List String := ["state_dict", "model"]
def supportedPrefix : String := "module."

section Texts
variable {H V : Type}

def textItems : List (Key H × V) → Option (List (String × V))
  | [] => some []
  | (.text key, value) :: rest => (textItems rest).map ((key, value) :: ·)
  | (.other _, _) :: _ => none

theorem textItemsSome {items : List (Key H × V)} {texts : List (String × V)} :
    textItems items = some texts ↔ items = texts.map (Prod.map Key.text id) := by
  induction items generalizing texts with
  | nil => cases texts <;> simp [textItems]
  | cons item rest ih =>
    obtain ⟨key | key, value⟩ := item
    · rw [textItems, Option.map_eq_some_iff]
      simp only [ih]
      cases texts with
      | nil => simp
      | cons text texts => simp [Prod.ext_iff, and_comm]
    · cases texts <;> simp [textItems, Prod.ext_iff]

theorem textsDistinct {items : List (Key H × V)} {texts : List (String × V)}
    (same : items = texts.map (Prod.map Key.text id)) (distinct : (items.map Prod.fst).Nodup) :
    (texts.map Prod.fst).Nodup := by
  have keys : (texts.map Prod.fst).map Key.text = (items.map Prod.fst : List (Key H)) := by
    rw [same, List.map_map, List.map_map]
    rfl
  exact List.Nodup.of_map Key.text (keys ▸ distinct)

def texts (state : Dict (Key H) V) : Option (Dict String V) :=
  match known : textItems state.items with
  | none => none
  | some items => some ⟨items, textsDistinct (textItemsSome.mp known) state.distinct⟩

theorem textsSome {state : Dict (Key H) V} {names : Dict String V} :
    texts state = some names ↔ state.items = names.items.map (Prod.map Key.text id) := by
  obtain ⟨items, distinct⟩ := names
  rw [texts]
  split
  · rename_i unknown
    rw [← textItemsSome, unknown]
    simp
  · rename_i found known
    rw [← textItemsSome]
    refine ⟨fun same => ?_, fun same => ?_⟩
    · cases same
      exact known
    · cases Option.some.inj (known.symm.trans same)
      rfl

end Texts

section Normalise
variable {H V : Type} [DecidableEq H] (mappingOf : V → Option (Dict (Key H) V))

def unwrapCheckpoint (checkpoint : V) (mapping : Dict (Key H) V) : Except CheckpointError V :=
  let wrapperKeys := supportedWrappers.filter (fun key => mapping.contains (.text key))
  if 1 < wrapperKeys.length then
    let found := String.intercalate ", " (wrapperKeys.map (fun key => s!"'{key}'"))
    .error (.valueError s!"ambiguous checkpoint wrappers: [{found}]")
  else
    match wrapperKeys with
    | key :: _ =>
      match mapping.find (.text key) with
      | some state => .ok state
      | none => .error (.keyError key)
    | [] => .ok checkpoint

def validateStateMapping (state : V) : Except CheckpointError (Dict String V) :=
  match mappingOf state with
  | none => .error (.valueError "checkpoint state dictionary must be a non-empty mapping")
  | some mapping =>
    if mapping.items.isEmpty then
      .error (.valueError "checkpoint state dictionary must be a non-empty mapping")
    else
      match texts mapping with
      | none => .error (.typeError "checkpoint state dictionary keys must be strings")
      | some names => .ok names

def stripModulePrefix (state : Dict String V) : Except CheckpointError (Dict String V) :=
  let prefixVariants := (state.keys.map (startsWith · supportedPrefix)).toFinset
  if prefixVariants = {true, false} then
    .error (.valueError "mixed 'module.' prefixes are not supported")
  else if prefixVariants = {true} then
    .ok (Dict.ofItems (state.items.map (Prod.map (removePrefix · supportedPrefix) id)))
  else .ok (Dict.ofItems state.items)

def normaliseStateDict (checkpoint : V) : Except CheckpointError (Dict String V) :=
  match mappingOf checkpoint with
  | none => .error (.typeError "checkpoint must contain a state dictionary mapping")
  | some mapping => do
    let state ← unwrapCheckpoint checkpoint mapping
    let names ← validateStateMapping mappingOf state
    stripModulePrefix names

end Normalise

section Exact
variable {H V : Type} {mappingOf : V → Option (Dict (Key H) V)} {checkpoint state : V}
  {mapping : Dict (Key H) V} {names result : Dict String V}

def Names (mappingOf : V → Option (Dict (Key H) V)) (state : V) (names : Dict String V) : Prop :=
  ∃ inner, mappingOf state = some inner ∧ inner.items ≠ [] ∧
    inner.items = names.items.map (Prod.map Key.text id)

theorem validateExact : validateStateMapping mappingOf state = .ok names ↔ Names mappingOf state names := by
  unfold validateStateMapping Names
  cases held : mappingOf state with
  | none => simp
  | some inner =>
    simp only [Option.some.injEq, exists_eq_left', ← textsSome]
    split
    · rename_i empty
      simp [List.isEmpty_iff.mp empty]
    · rename_i filled
      have filled : inner.items ≠ [] := by simpa using filled
      cases texts inner <;> simp [filled]

def Uniform (keys : List String) : Prop :=
  (∀ key ∈ keys, startsWith key supportedPrefix = true) ∨
    ∀ key ∈ keys, startsWith key supportedPrefix = false

section Variants
variable {keys : List String} {f : String → Bool}

theorem bothVariants : (keys.map f).toFinset = {true, false} ↔
    (∃ key ∈ keys, f key = true) ∧ ∃ key ∈ keys, f key = false := by
  simp [Finset.ext_iff, and_comm]

theorem trueVariant : (keys.map f).toFinset = {true} ↔
    (∃ key ∈ keys, f key = true) ∧ ∀ key ∈ keys, f key = true := by
  simp [Finset.eq_singleton_iff_unique_mem]

end Variants

def Strips (keys : List String) (rename : String → String) : Prop :=
  (∀ key ∈ keys, key = supportedPrefix ++ rename key) ∨
    (∀ key ∈ keys, startsWith key supportedPrefix = false) ∧ ∀ key ∈ keys, rename key = key

theorem stripsInjective {keys : List String} {rename : String → String} (strips : Strips keys rename) :
    Set.InjOn rename {key | key ∈ keys} := by
  intro a inside b within same
  rcases strips with off | ⟨_, on⟩
  · rw [off a inside, off b within, same]
  · rw [← on a inside, ← on b within, same]

theorem stripMixed (mixed : ¬ Uniform names.keys) : stripModulePrefix names =
    .error (.valueError "mixed 'module.' prefixes are not supported") := by
  refine if_pos (bothVariants.mpr ?_)
  simp only [Uniform, not_or, not_forall, Bool.not_eq_true, Bool.not_eq_false, exists_prop] at mixed
  exact ⟨mixed.2, mixed.1⟩

theorem stripUniform (uniform : Uniform names.keys) : ∃ rename, Strips names.keys rename ∧
    ∃ result, stripModulePrefix names = .ok result ∧
      result.items = names.items.map (Prod.map rename id) := by
  unfold stripModulePrefix
  simp only [bothVariants, trueVariant]
  by_cases prefixed : ∃ key ∈ names.keys, startsWith key supportedPrefix = true
  · have starts : ∀ key ∈ names.keys, startsWith key supportedPrefix = true := by
      refine uniform.resolve_right (fun lacks => ?_)
      obtain ⟨key, inside, starts⟩ := prefixed
      exact Bool.noConfusion (starts.symm.trans (lacks key inside))
    have pure : ¬ ∃ key ∈ names.keys, startsWith key supportedPrefix = false := by
      rintro ⟨key, inside, lacks⟩
      exact Bool.noConfusion (lacks.symm.trans (starts key inside))
    have strips : Strips names.keys (removePrefix · supportedPrefix) :=
      .inl (fun key inside => startsWithIff.mp (starts key inside))
    refine ⟨_, strips, _, ?_, ofRenamed names (stripsInjective strips)⟩
    rw [if_neg (fun mixed => pure mixed.2), if_pos ⟨prefixed, starts⟩]
  · have lacks : ∀ key ∈ names.keys, startsWith key supportedPrefix = false := by
      simpa using prefixed
    refine ⟨id, .inr ⟨lacks, fun _ _ => rfl⟩, Dict.ofItems names.items, ?_, ?_⟩
    · rw [if_neg (fun mixed => prefixed mixed.1), if_neg (fun starts => prefixed starts.1)]
    · rw [ofDistinct names.distinct, Prod.map_id, List.map_id]

section Wrapped
variable [DecidableEq H]

def stateOf (checkpoint : V) (mapping : Dict (Key H) V) : Option V :=
  match mapping.find (.text "state_dict"), mapping.find (.text "model") with
  | some state, none => some state
  | none, some state => some state
  | none, none => some checkpoint
  | some _, some _ => none

theorem unwrapExact :
    unwrapCheckpoint checkpoint mapping = .ok state ↔ stateOf checkpoint mapping = some state := by
  unfold unwrapCheckpoint stateOf
  cases outer : mapping.find (.text "state_dict") <;> cases inner : mapping.find (.text "model") <;>
    simp [supportedWrappers, Dict.contains, outer, inner]

def Kept (names result : Dict String V) : Prop :=
  ∃ rename, Strips names.keys rename ∧ Set.InjOn rename {key | key ∈ names.keys} ∧
    result.items = names.items.map (Prod.map rename id)

theorem normaliseExact (held : mappingOf checkpoint = some mapping) :
    normaliseStateDict mappingOf checkpoint = .ok result ↔ ∃ state names,
      stateOf checkpoint mapping = some state ∧ Names mappingOf state names ∧
        stripModulePrefix names = .ok result := by
  unfold normaliseStateDict
  simp only [held, okBind, unwrapExact, validateExact]
  exact ⟨fun ⟨state, only, names, found, stripped⟩ => ⟨state, names, only, found, stripped⟩,
    fun ⟨state, names, only, found, stripped⟩ => ⟨state, only, names, found, stripped⟩⟩

theorem checkpointKept (mappingOf : V → Option (Dict (Key H) V)) (checkpoint : V)
    (mapping : Dict (Key H) V) (held : mappingOf checkpoint = some mapping) :
    ((∃ result, normaliseStateDict mappingOf checkpoint = .ok result) ↔ ∃ state names,
      stateOf checkpoint mapping = some state ∧ Names mappingOf state names ∧ Uniform names.keys) ∧
    (∀ result, normaliseStateDict mappingOf checkpoint = .ok result → ∃ state names,
      stateOf checkpoint mapping = some state ∧ Names mappingOf state names ∧ Kept names result) ∧
    ((¬ ∃ state names,
        stateOf checkpoint mapping = some state ∧ Names mappingOf state names ∧ Uniform names.keys) →
      ∃ raised, normaliseStateDict mappingOf checkpoint = .error raised) := by
  have returns : (∃ result, normaliseStateDict mappingOf checkpoint = .ok result) ↔ ∃ state names,
      stateOf checkpoint mapping = some state ∧ Names mappingOf state names ∧ Uniform names.keys := by
    refine ⟨fun ⟨result, ok⟩ => ?_, fun ⟨state, names, only, found, uniform⟩ => ?_⟩
    · obtain ⟨state, names, only, found, stripped⟩ := (normaliseExact held).mp ok
      refine ⟨state, names, only, found, by_contra fun mixed => ?_⟩
      rw [stripMixed mixed] at stripped
      contradiction
    · obtain ⟨_, _, result, stripped, _⟩ := stripUniform uniform
      exact ⟨result, (normaliseExact held).mpr ⟨state, names, only, found, stripped⟩⟩
  refine ⟨returns, fun result ok => ?_, fun refused => ?_⟩
  · obtain ⟨state, names, only, found, stripped⟩ := (normaliseExact held).mp ok
    have uniform : Uniform names.keys := by
      by_contra mixed
      rw [stripMixed mixed] at stripped
      contradiction
    obtain ⟨rename, strips, other, again, items⟩ := stripUniform uniform
    cases Except.ok.inj (stripped.symm.trans again)
    exact ⟨state, names, only, found, rename, strips, stripsInjective strips, items⟩
  · cases ended : normaliseStateDict mappingOf checkpoint with
    | error raised => exact ⟨raised, rfl⟩
    | ok result => exact absurd (returns.mp ⟨result, ended⟩) refused

end Wrapped

end Exact

def wrappedObjects : Nat → Option (Dict (Key Empty) Nat)
  | 0 => some ⟨[(.text "epoch", 5), (.text "state_dict", 1)], by decide⟩
  | 1 => some ⟨[(.text "module.weight", 7), (.text "module.module.bias", 8)], by decide⟩
  | _ => none

theorem checkpointKeptWrapped : ∃ result names, normaliseStateDict wrappedObjects 0 = .ok result ∧
    result.items = [("weight", 7), ("module.bias", 8)] ∧ Names wrappedObjects 1 names ∧
    Kept names result := by
  obtain ⟨_, kept, _⟩ := checkpointKept wrappedObjects 0 _ rfl
  obtain ⟨state, names, only, found, same⟩ := kept _ rfl
  cases only
  exact ⟨_, names, rfl, rfl, found, same⟩

end KaraokeAnything.Checkpoint
