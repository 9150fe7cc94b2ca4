import Mathlib.Logic.Relation
import KaraokeAnything.Library.Lifecycle
import KaraokeAnything.Library.Mutex

/-! A component in use by one worker, which any number of clients reset, replace and
shut down behind a lock. A replacement is started before its client waits for the
lock; the name of the chosen component is written with the swap, or late, when the
lock is released. Components are numbered in the order they are built. -/
namespace HotSwap
open Lifecycle Mutex

inductive Job where
  | swap (late : Bool) (replacement : Nat)
  | reset
  | shutdown

inductive Client where
  | starting (late : Bool) (replacement : Nat)
  | waiting (job : Job)
  | inside (job : Job) (target : Nat)
  | joining
  | complete

inductive Worker (P : Type) where
  | idle
  | waiting (item : P)
  | inside (item : P) (target : Nat)
  | gone

structure State (P N : Type) where
  installed : Nat
  next : Nat
  locked : Bool
  worker : Worker P
  clients : List Client
  calls : List (Call P)
  taken : List P
  names : Nat → N
  chosen : N
  asked : Bool

variable {P N : Type}

def Job.method : Job → Method P
  | swap _ _ => .stop
  | reset => .reset
  | shutdown => .stop

def Client.fresh (stops : Bool) : Client → Prop
  | waiting .reset => True
  | complete => True
  | waiting .shutdown => stops = true
  | joining => stops = true
  | _ => False

def flushed (target : Nat) : List (Call P) :=
  [⟨target, .flush, .begins⟩, ⟨target, .flush, .ends⟩]

inductive Move : State P N → State P N → Prop where
  | takes {s : State P N} (item : P) (idle : s.worker = .idle) :
    Move s { s with worker := .waiting item, taken := s.taken ++ [item] }
  | quits {s : State P N} (t : Nat) (found : s.clients[t]? = some .joining)
    (outside : ∀ item target, s.worker ≠ .inside item target) :
    Move s { s with worker := .gone }
  | begins {s : State P N} (item : P) (waiting : s.worker = .waiting item)
    (free : s.locked = false) :
    Move s { s with
      locked := true
      worker := .inside item s.installed
      calls := s.calls ++ [⟨s.installed, .process item, .begins⟩] }
  | finishes {s : State P N} (item : P) (target : Nat) (after : Worker P)
    (inside : s.worker = .inside item target) (outside : after = .idle ∨ after = .gone) :
    Move s { s with
      locked := false
      worker := after
      calls := s.calls ++ [⟨target, .process item, .ends⟩] }
  | launches {s : State P N} (late : Bool) (name : N) :
    Move s { s with
      next := s.next + 1
      clients := s.clients ++ [.starting late s.next]
      calls := s.calls ++ [⟨s.next, .start, .begins⟩]
      names := Function.update s.names s.next name }
  | asks {s : State P N} (client : Client) (stops : Bool) (fresh : client.fresh stops) :
    Move s { s with clients := s.clients ++ [client], asked := s.asked || stops }
  | starts {s : State P N} (t : Nat) (late : Bool) (r : Nat)
    (found : s.clients[t]? = some (.starting late r)) :
    Move s { s with
      clients := s.clients.set t (.waiting (.swap late r))
      calls := s.calls ++ [⟨r, .start, .ends⟩] }
  | fails {s : State P N} (t : Nat) (late : Bool) (r : Nat)
    (found : s.clients[t]? = some (.starting late r)) :
    Move s { s with
      clients := s.clients.set t .complete
      calls := s.calls ++ [⟨r, .start, .fails⟩] }
  | joins {s : State P N} (t : Nat) (found : s.clients[t]? = some .joining) :
    Move s { s with clients := s.clients.set t (.waiting .shutdown) }
  | refuses {s : State P N} (t : Nat) (job : Job) (found : s.clients[t]? = some (.waiting job))
    (free : s.locked = false) :
    Move s { s with
      clients := s.clients.set t .complete
      calls := s.calls ++ flushed s.installed }
  | resets {s : State P N} (t : Nat) (found : s.clients[t]? = some (.waiting .reset))
    (free : s.locked = false) :
    Move s { s with
      locked := true
      clients := s.clients.set t (.inside .reset s.installed)
      calls := s.calls ++ [⟨s.installed, .reset, .begins⟩] }
  | shuts {s : State P N} (t : Nat) (found : s.clients[t]? = some (.waiting .shutdown))
    (free : s.locked = false) :
    Move s { s with
      locked := true
      clients := s.clients.set t (.inside .shutdown s.installed)
      calls := s.calls ++ (flushed s.installed ++ [⟨s.installed, .stop, .begins⟩]) }
  | swaps {s : State P N} (t : Nat) (late : Bool) (r : Nat)
    (found : s.clients[t]? = some (.waiting (.swap late r))) (free : s.locked = false) :
    Move s { s with
      installed := r
      locked := true
      clients := s.clients.set t (.inside (.swap late r) s.installed)
      calls := s.calls ++ (flushed s.installed ++ [⟨s.installed, .stop, .begins⟩])
      chosen := if late then s.chosen else s.names r }
  | leaves {s : State P N} (t : Nat) (job : Job) (target : Nat)
    (found : s.clients[t]? = some (.inside job target)) :
    Move s { s with
      locked := false
      clients := s.clients.set t .complete
      calls := s.calls ++ [⟨target, job.method, .ends⟩]
      chosen := match job with
        | .swap true r => s.names r
        | _ => s.chosen }

def Client.replacement : Client → Option Nat
  | starting _ r => some r
  | waiting (.swap _ r) => some r
  | _ => none

def Client.prepared : Client → Option Nat
  | waiting (.swap _ r) => some r
  | _ => none

def Client.work : Client → Option (Job × Nat)
  | inside job target => some (job, target)
  | _ => none

section Slots
variable {α β : Type} {items : List α} {t u : Nat} {old new : α} {view : α → Option β} {v : β}

def At (items : List α) (view : α → Option β) (t : Nat) (v : β) : Prop :=
  items[t]?.bind view = some v

theorem atFound (present : items[t]? = some old) : At items view t v ↔ view old = some v := by
  simp [At, present]

theorem atSet (present : items[t]? = some old) : At (items.set t new) view u v ↔
    (u = t ∧ view new = some v) ∨ (u ≠ t ∧ At items view u v) := by
  have inside : t < items.length := (List.getElem?_eq_some_iff.mp present).1
  by_cases same : t = u
  · subst same
    simp [At, inside]
  · simp [At, same, Ne.symm same]

theorem atHere (present : items[t]? = some old) :
    At (items.set t new) view t v ↔ view new = some v := by
  simp [atSet present]

theorem atElsewhere (present : items[t]? = some old) (other : u ≠ t) :
    At (items.set t new) view u v ↔ At items view u v := by
  simp [atSet present, other]

theorem atAppend : At (items ++ [new]) view u v ↔
    (u = items.length ∧ view new = some v) ∨ At items view u v := by
  rcases Nat.lt_trichotomy u items.length with before | last | after
  · simp [At, List.getElem?_append_left before, Nat.ne_of_lt before]
  · subst last
    simp [At]
  · have beyond : items.length ≤ u := Nat.le_of_lt after
    have nothing : u - items.length ≠ 0 := by omega
    simp [At, List.getElem?_append_right beyond, List.getElem?_eq_none_iff.mpr beyond,
      Nat.ne_of_gt after, nothing]

theorem atMap {γ : Type} {f : γ → α} {slots : List γ} :
    At (slots.map f) view t v ↔ At slots (fun slot => view (f slot)) t v := by
  rw [At, List.getElem?_map, Option.bind_map]
  rfl

theorem atSetKept (present : items[t]? = some old)
    (kept : ∀ v, view new = some v → view old = some v) (shown : At (items.set t new) view u v) :
    At items view u v := by
  rcases (atSet present).mp shown with ⟨same, shown⟩ | ⟨_, shown⟩
  · rw [same]
    exact (atFound present).mpr (kept v shown)
  · exact shown

theorem atSetStays (present : items[t]? = some old)
    (kept : view old = some v → view new = some v) (shown : At items view u v) :
    At (items.set t new) view u v := by
  by_cases here : u = t
  · subst here
    exact (atHere present).mpr (kept ((atFound present).mp shown))
  · exact (atElsewhere present here).mpr shown

theorem atAppendKept (hidden : view new = none) (shown : At (items ++ [new]) view u v) :
    At items view u v := by
  rcases atAppend.mp shown with ⟨_, shown⟩ | shown
  · rw [hidden] at shown
    contradiction
  · exact shown

end Slots

namespace State

inductive Holder where
  | worker
  | client (t : Nat)

def Holds (s : State P N) : Holder → Prop
  | .worker => ∃ item target, s.worker = .inside item target
  | .client t => ∃ work, At s.clients Client.work t work

/- The name lags behind the installed component only inside a late swap. Outside the lock
the two agree. -/
structure Linked (s : State P N) : Prop where
  exclusive : Exclusive s.locked s.Holds
  installed : s.installed < s.next
  worker : ∀ item target, s.worker = .inside item target → target = s.installed
  pending : ∀ t r, At s.clients Client.replacement t r → r < s.next ∧ r ≠ s.installed
  distinct : ∀ t u r, At s.clients Client.replacement t r → At s.clients Client.replacement u r →
    t = u
  swapping : ∀ t late r target, At s.clients Client.work t (.swap late r, target) →
    r = s.installed ∧ target ≠ s.installed ∧ target < s.next ∧
      ∀ u, ¬ At s.clients Client.replacement u target
  resetting : ∀ t target, At s.clients Client.work t (.reset, target) → target = s.installed
  shutting : ∀ t target, At s.clients Client.work t (.shutdown, target) → target = s.installed
  agrees : (∀ t r target, ¬ At s.clients Client.work t (.swap true r, target)) →
    s.chosen = s.names s.installed
  running : ⟨s.installed, .start, .ends⟩ ∈ s.calls
  ready : ∀ t r, At s.clients Client.prepared t r → ⟨r, .start, .ends⟩ ∈ s.calls

section Preserved
variable {s s' : State P N}

theorem freeInside (linked : s.Linked) (free : s.locked = false) :
    (∀ item target, s.worker ≠ .inside item target) ∧
      ∀ t work, ¬ At s.clients Client.work t work := by
  have exclusive := linked.exclusive
  rw [free] at exclusive
  exact ⟨fun item target inside => Mutex.free exclusive .worker ⟨item, target, inside⟩,
    fun t work inside => Mutex.free exclusive (.client t) ⟨work, inside⟩⟩

theorem entersExclusive {t : Nat} {client : Client} {work : Job × Nat} {old : Client}
    (linked : s.Linked) (found : s.clients[t]? = some old) (free : s.locked = false)
    (inside : client.work = some work) (worker : s'.worker = s.worker)
    (clients : s'.clients = s.clients.set t client) : Exclusive true s'.Holds := by
  have exclusive := linked.exclusive
  rw [free] at exclusive
  refine acquires (.client t) exclusive ⟨work, ?_⟩ ?_
  · rw [clients]
    exact (atSet found).mpr (.inl ⟨rfl, inside⟩)
  · intro a other holds
    cases a with
    | worker =>
      rw [Holds, worker] at holds
      exact holds
    | client u =>
      obtain ⟨work, holds⟩ := holds
      rw [clients] at holds
      rcases (atSet found).mp holds with ⟨same, _⟩ | ⟨_, holds⟩
      · exact absurd (congrArg Holder.client same) other
      · exact ⟨work, holds⟩

theorem outsideExclusive (linked : s.Linked) (locked : s'.locked = s.locked)
    (worker : ∀ item target, s'.worker = .inside item target ↔ s.worker = .inside item target)
    (clients : ∀ t work, At s'.clients Client.work t work ↔ At s.clients Client.work t work) :
    Exclusive s'.locked s'.Holds := by
  rw [locked]
  refine keeps linked.exclusive (fun h => ?_)
  cases h with
  | worker => simp only [Holds, worker]
  | client t => simp only [Holds, clients]

theorem clientLinked {t : Nat} {old : Client} (linked : s.Linked)
    (found : s.clients[t]? = some old) (new : Client) (more : List (Call P))
    (outside : old.work = none ∧ new.work = none)
    (replacement : ∀ r, new.replacement = some r → old.replacement = some r)
    (prepared : ∀ r, new.prepared = some r →
      old.prepared = some r ∨ ⟨r, .start, .ends⟩ ∈ more) :
    State.Linked { s with clients := s.clients.set t new, calls := s.calls ++ more } := by
  have work (u : Nat) (w : Job × Nat) :
      At (s.clients.set t new) Client.work u w ↔ At s.clients Client.work u w := by
    rw [atSet found, outside.2]
    refine ⟨fun inside => ?_, fun inside => .inr ⟨fun same => ?_, inside⟩⟩
    · rcases inside with ⟨_, inside⟩ | ⟨_, inside⟩
      · contradiction
      · exact inside
    · rw [same, atFound found, outside.1] at inside
      contradiction
  have pending (u r : Nat) (waits : At (s.clients.set t new) Client.replacement u r) :
      At s.clients Client.replacement u r := by
    rcases (atSet found).mp waits with ⟨same, waits⟩ | ⟨_, waits⟩
    · rw [same]
      exact (atFound found).mpr (replacement r waits)
    · exact waits
  exact {
    exclusive := outsideExclusive linked rfl (fun _ _ => Iff.rfl) work
    installed := linked.installed
    worker := linked.worker
    pending := fun u r waits => linked.pending u r (pending u r waits)
    distinct := fun u v r left right => linked.distinct u v r (pending u r left) (pending v r right)
    swapping := fun u late r target inside => by
      obtain ⟨same, other, below, free⟩ := linked.swapping u late r target ((work u _).mp inside)
      exact ⟨same, other, below, fun v waits => free v (pending v _ waits)⟩
    resetting := fun u target inside => linked.resetting u target ((work u _).mp inside)
    shutting := fun u target inside => linked.shutting u target ((work u _).mp inside)
    agrees := fun early => linked.agrees (fun u r target inside =>
      early u r target ((work u _).mpr inside))
    running := List.mem_append_left _ linked.running
    ready := fun u r waits => by
      rcases (atSet found).mp waits with ⟨_, waits⟩ | ⟨_, waits⟩
      · rcases prepared r waits with before | now
        · exact List.mem_append_left _ (linked.ready t r ((atFound found).mpr before))
        · exact List.mem_append_right _ now
      · exact List.mem_append_left _ (linked.ready u r waits) }

theorem arrivesLinked (linked : s.Linked) (client : Client) (next : Nat) (more : List (Call P))
    (names : Nat → N) (outside : client.work = none) (unprepared : client.prepared = none)
    (later : s.next ≤ next) (replacement : ∀ r, client.replacement = some r → r = s.next ∧ r < next)
    (known : names s.installed = s.names s.installed) :
    State.Linked { s with
      next := next
      clients := s.clients ++ [client]
      calls := s.calls ++ more
      names := names } := by
  have work (u : Nat) (w : Job × Nat) :
      At (s.clients ++ [client]) Client.work u w ↔ At s.clients Client.work u w := by
    rw [atAppend, outside]
    simp
  have pending (u r : Nat) (waits : At (s.clients ++ [client]) Client.replacement u r) :
      (u = s.clients.length ∧ r = s.next ∧ r < next) ∨ At s.clients Client.replacement u r := by
    rcases atAppend.mp waits with ⟨last, waits⟩ | waits
    · exact .inl ⟨last, replacement r waits⟩
    · exact .inr waits
  have installed := linked.installed
  exact {
    exclusive := outsideExclusive linked rfl (fun _ _ => Iff.rfl) work
    installed := Nat.lt_of_lt_of_le installed later
    worker := linked.worker
    pending := fun u r waits => by
      rcases pending u r waits with ⟨_, same, below⟩ | waits
      · exact ⟨below, same ▸ Nat.ne_of_gt installed⟩
      · obtain ⟨below, other⟩ := linked.pending u r waits
        exact ⟨Nat.lt_of_lt_of_le below later, other⟩
    distinct := fun u v r left right => by
      rcases pending u r left with ⟨mine, same, _⟩ | left <;>
        rcases pending v r right with ⟨yours, also, _⟩ | right
      · exact mine.trans yours.symm
      · exact absurd (linked.pending v r right).1 (by omega)
      · exact absurd (linked.pending u r left).1 (by omega)
      · exact linked.distinct u v r left right
    swapping := fun u late r target inside => by
      obtain ⟨same, other, below, free⟩ := linked.swapping u late r target ((work u _).mp inside)
      refine ⟨same, other, Nat.lt_of_lt_of_le below later, fun v waits => ?_⟩
      rcases pending v target waits with ⟨_, new, _⟩ | waits
      · omega
      · exact free v waits
    resetting := fun u target inside => linked.resetting u target ((work u _).mp inside)
    shutting := fun u target inside => linked.shutting u target ((work u _).mp inside)
    agrees := fun early => (linked.agrees (fun u r target inside =>
      early u r target ((work u _).mpr inside))).trans known.symm
    running := List.mem_append_left _ linked.running
    ready := fun u r waits => by
      rcases atAppend.mp waits with ⟨_, waits⟩ | waits
      · rw [unprepared] at waits
        contradiction
      · exact List.mem_append_left _ (linked.ready u r waits) }

theorem worksLinked {t : Nat} {job : Job} (linked : s.Linked)
    (found : s.clients[t]? = some (.waiting job)) (free : s.locked = false)
    (keeps : job = .reset ∨ job = .shutdown) (more : List (Call P)) :
    State.Linked { s with
      locked := true
      clients := s.clients.set t (.inside job s.installed)
      calls := s.calls ++ more } := by
  obtain ⟨outside, nobody⟩ := freeInside linked free
  have work (u : Nat) (w : Job × Nat)
      (inside : At (s.clients.set t (.inside job s.installed)) Client.work u w) :
      w = (job, s.installed) := by
    rcases (atSet found).mp inside with ⟨_, inside⟩ | ⟨_, inside⟩
    · exact (Option.some.inj inside).symm
    · exact absurd inside (nobody u w)
  have pending (view : Client → Option Nat) (hidden : view (.inside job s.installed) = none)
      (u r : Nat) (waits : At (s.clients.set t (.inside job s.installed)) view u r) :
      At s.clients view u r := by
    rcases (atSet found).mp waits with ⟨_, waits⟩ | ⟨_, waits⟩
    · rw [hidden] at waits
      contradiction
    · exact waits
  exact {
    exclusive := entersExclusive linked found free rfl rfl rfl
    installed := linked.installed
    worker := linked.worker
    pending := fun u r waits => linked.pending u r (pending _ rfl u r waits)
    distinct := fun u v r left right =>
      linked.distinct u v r (pending _ rfl u r left) (pending _ rfl v r right)
    swapping := fun u late r target inside => by
      have same := work u _ inside
      rcases keeps with h | h <;> simp [h] at same
    resetting := fun u target inside => (Prod.mk.inj (work u _ inside)).2
    shutting := fun u target inside => (Prod.mk.inj (work u _ inside)).2
    agrees := fun _ => linked.agrees (fun u r target inside => nobody u _ inside)
    running := List.mem_append_left _ linked.running
    ready := fun u r waits => List.mem_append_left _ (linked.ready u r (pending _ rfl u r waits)) }

theorem swapsLinked {t : Nat} {late : Bool} {r : Nat} (linked : s.Linked)
    (found : s.clients[t]? = some (.waiting (.swap late r))) (free : s.locked = false) :
    State.Linked { s with
      installed := r
      locked := true
      clients := s.clients.set t (.inside (.swap late r) s.installed)
      calls := s.calls ++ (flushed s.installed ++ [⟨s.installed, .stop, .begins⟩])
      chosen := if late then s.chosen else s.names r } := by
  obtain ⟨outside, nobody⟩ := freeInside linked free
  have mine : At s.clients Client.replacement t r := (atFound found).mpr rfl
  have prepared : At s.clients Client.prepared t r := (atFound found).mpr rfl
  have installed := linked.installed
  have pending := linked.pending
  have distinct := linked.distinct
  have ready := linked.ready
  constructor <;> simp only [atSet found, Client.work, Client.replacement, Client.prepared]
  · exact entersExclusive linked found free rfl rfl rfl
  case agrees =>
    intro early
    cases late with
    | false => rfl
    | true => exact absurd (.inl ⟨rfl, rfl⟩) (early t r s.installed)
  all_goals grind

theorem leavesLinked {t : Nat} {job : Job} {target : Nat} (linked : s.Linked)
    (found : s.clients[t]? = some (.inside job target)) :
    State.Linked { s with
      locked := false
      clients := s.clients.set t .complete
      calls := s.calls ++ [⟨target, job.method, .ends⟩]
      chosen := match job with
        | .swap true r => s.names r
        | _ => s.chosen } := by
  have mine : At s.clients Client.work t (job, target) := (atFound found).mpr rfl
  have exclusive := linked.exclusive
  have installed := linked.installed
  have worker := linked.worker
  have pending := linked.pending
  have distinct := linked.distinct
  have swapping := linked.swapping
  have resetting := linked.resetting
  have shutting := linked.shutting
  have agrees := linked.agrees
  have running := linked.running
  have ready := linked.ready
  have alone (u : Nat) (work : Job × Nat) (inside : At s.clients Client.work u work) : u = t := by
    have same := exclusive.one (.client u) (.client t) ⟨work, inside⟩ ⟨_, mine⟩
    exact Holder.client.inj same
  constructor <;> simp only [atSet found, Client.work, Client.replacement, Client.prepared]
  · refine releases (.client t) exclusive ⟨_, mine⟩ (fun holds => ?_) (fun a other holds => ?_)
    · obtain ⟨work, holds⟩ := holds
      rcases (atSet found).mp holds with ⟨_, inside⟩ | ⟨other, _⟩
      · contradiction
      · exact other rfl
    · cases a with
      | worker => exact holds
      | client u =>
        obtain ⟨work, holds⟩ := holds
        rcases (atSet found).mp holds with ⟨_, inside⟩ | ⟨_, inside⟩
        · contradiction
        · exact ⟨work, inside⟩
  case agrees =>
    intro early
    cases job with
    | swap late r =>
      cases late with
      | false => exact agrees (fun u q other inside => by
          cases alone u _ inside
          have same := (atFound found).mp inside
          simp [Client.work] at same)
      | true => exact congrArg s.names (swapping t true r target mine).1
    | reset => exact agrees (fun u q other inside => by
        cases alone u _ inside
        have same := (atFound found).mp inside
        simp [Client.work] at same)
    | shutdown => exact agrees (fun u q other inside => by
        cases alone u _ inside
        have same := (atFound found).mp inside
        simp [Client.work] at same)
  all_goals grind

theorem moveLinked (move : Move s s') (linked : s.Linked) : s'.Linked := by
  cases move with
  | swaps t late r found free => exact swapsLinked linked found free
  | leaves t job target found => exact leavesLinked linked found
  | takes item idle =>
    refine { linked with exclusive := ?_, worker := by intros; contradiction }
    exact outsideExclusive linked rfl (by simp [idle]) (fun _ _ => Iff.rfl)
  | quits t found outside =>
    refine { linked with exclusive := ?_, worker := by intros; contradiction }
    exact outsideExclusive linked rfl (by simp [outside]) (fun _ _ => Iff.rfl)
  | begins item waiting free =>
    obtain ⟨outside, nobody⟩ := freeInside linked free
    have exclusive := linked.exclusive
    rw [free] at exclusive
    refine { linked with
      exclusive := ?_
      worker := ?_
      running := List.mem_append_left _ linked.running
      ready := fun u r waits => List.mem_append_left _ (linked.ready u r waits) }
    · refine acquires .worker exclusive ⟨item, s.installed, rfl⟩ (fun a other holds => ?_)
      cases a with
      | worker => exact absurd rfl other
      | client t => exact holds
    · intro other target inside
      cases inside
      rfl
  | finishes item target after inside outside =>
    have out (item : P) (target : Nat) : after ≠ .inside item target := by
      rcases outside with h | h <;> simp [h]
    refine { linked with
      exclusive := ?_
      worker := fun item target inside => absurd inside (out item target)
      running := List.mem_append_left _ linked.running
      ready := fun u r waits => List.mem_append_left _ (linked.ready u r waits) }
    refine releases .worker linked.exclusive ⟨item, target, inside⟩ (fun holds => ?_)
      (fun a other holds => ?_)
    · obtain ⟨item, target, holds⟩ := holds
      exact out item target holds
    · cases a with
      | worker => exact absurd rfl other
      | client t => exact holds
  | launches late name =>
    refine arrivesLinked linked _ _ _ _ rfl rfl (Nat.le_succ _) (fun r waits => ?_) ?_
    · cases waits
      exact ⟨rfl, Nat.lt_succ_self _⟩
    · exact Function.update_of_ne (Nat.ne_of_lt linked.installed) _ _
  | asks client stops fresh =>
    have bare : client.work = none ∧ client.prepared = none ∧ client.replacement = none := by
      cases client with
      | waiting job => cases job <;> first | exact ⟨rfl, rfl, rfl⟩ | exact fresh.elim
      | joining => exact ⟨rfl, rfl, rfl⟩
      | complete => exact ⟨rfl, rfl, rfl⟩
      | starting late r => exact fresh.elim
      | inside job target => exact fresh.elim
    have arrives := arrivesLinked linked client s.next [] s.names bare.1 bare.2.1 (Nat.le_refl _)
      (fun r waits => by rw [bare.2.2] at waits; contradiction) rfl
    rw [List.append_nil] at arrives
    exact ⟨arrives.exclusive, arrives.installed, arrives.worker, arrives.pending, arrives.distinct,
      arrives.swapping, arrives.resetting, arrives.shutting, arrives.agrees, arrives.running,
      arrives.ready⟩
  | starts t late r found =>
    refine clientLinked linked found _ _ ⟨rfl, rfl⟩ (fun _ same => same) (fun q waits => ?_)
    cases waits
    exact .inr List.mem_cons_self
  | fails t late r found =>
    exact clientLinked linked found _ _ ⟨rfl, rfl⟩ (fun _ none => by contradiction)
      (fun _ none => by contradiction)
  | joins t found =>
    have joined := clientLinked linked found (.waiting .shutdown) [] ⟨rfl, rfl⟩
      (fun _ none => by contradiction) (fun _ none => by contradiction)
    rwa [List.append_nil] at joined
  | refuses t job found free =>
    exact clientLinked linked found _ _ ⟨rfl, rfl⟩ (fun _ none => by contradiction)
      (fun _ none => by contradiction)
  | resets t found free => exact worksLinked linked found free (.inl rfl) _
  | shuts t found free => exact worksLinked linked found free (.inr rfl) _

theorem movesLinked (moves : Relation.ReflTransGen Move s s') (linked : s.Linked) : s'.Linked := by
  induction moves with
  | refl => exact linked
  | tail _ move ih => exact moveLinked move ih

end Preserved

end State

end HotSwap
