import KaraokeAnything.Library.HotSwap

/-! Until a shutdown is asked for, every component is started once, then used for one
call at a time, then stopped at most once, and every item the worker took goes to one
component. -/
namespace HotSwap
open Lifecycle

variable {P N : Type} [DecidableEq P]

def Client.launching : Client → Option Nat
  | starting _ r => some r
  | _ => none

def given (calls : List (Call P)) : List P :=
  calls.filterMap (fun call => match call.method, call.phase with
    | .process item, .begins => some item
    | _, _ => none)

def Client.calm : Client → Prop
  | joining => False
  | waiting .shutdown => False
  | inside .shutdown _ => False
  | _ => True

def Worker.held : Worker P → List P
  | waiting item => [item]
  | _ => []

namespace State

structure Ordered (s : State P N) (stage : Nat → Stage P) : Prop where
  log : Staged s.calls stage
  unborn : ∀ i, s.next ≤ i → stage i = .unborn
  starting : ∀ t r, At s.clients Client.launching t r → stage r = .starting
  prepared : ∀ t r, At s.clients Client.prepared t r → stage r = .ready
  swapping : ∀ t late r target, At s.clients Client.work t (.swap late r, target) →
    stage target = .stopping
  processing : ∀ item target, s.worker = .inside item target →
    stage s.installed = .busy (.process item)
  resetting : ∀ t target, At s.clients Client.work t (.reset, target) →
    stage s.installed = .busy .reset
  resting : (∀ item target, s.worker ≠ .inside item target) →
    (∀ t target, ¬ At s.clients Client.work t (.reset, target)) → stage s.installed = .ready
  whole : given s.calls ++ s.worker.held = s.taken
  quiet : ∀ client ∈ s.clients, client.calm

section Preserved
variable {s s' : State P N} {stage : Nat → Stage P}

omit [DecidableEq P] in
theorem launchingReplacement {t r : Nat} (waits : At s.clients Client.launching t r) :
    At s.clients Client.replacement t r := by
  obtain ⟨client, found, view⟩ := Option.bind_eq_some_iff.mp waits
  refine Option.bind_eq_some_iff.mpr ⟨client, found, ?_⟩
  cases client with
  | starting late q => exact view
  | waiting job => contradiction
  | inside job target => contradiction
  | joining => contradiction
  | complete => contradiction

omit [DecidableEq P] in
theorem preparedReplacement {t r : Nat} (waits : At s.clients Client.prepared t r) :
    At s.clients Client.replacement t r := by
  obtain ⟨client, found, view⟩ := Option.bind_eq_some_iff.mp waits
  refine Option.bind_eq_some_iff.mpr ⟨client, found, ?_⟩
  cases client with
  | waiting job => cases job <;> exact view
  | starting late q => contradiction
  | inside job target => contradiction
  | joining => contradiction
  | complete => contradiction

theorem stagedFlushed {calls : List (Call P)} {target : Nat} (log : Staged calls stage)
    (ready : stage target = .ready) : Staged (calls ++ flushed target) stage := by
  have begun := stagedSnoc ⟨target, .flush, .begins⟩ (.busy .flush) log (by rw [ready]; rfl)
  have complete := stagedSnoc ⟨target, .flush, .ends⟩ .ready begun (by simp [advance])
  rw [Function.update_idem, ← ready, Function.update_eq_self, List.append_assoc] at complete
  exact complete

theorem restingFree (linked : s.Linked) (ordered : s.Ordered stage) (free : s.locked = false) :
    stage s.installed = .ready := by
  obtain ⟨outside, nobody⟩ := freeInside linked free
  exact ordered.resting outside (fun t target => nobody t _)

theorem calmUpdate {i : Nat} (next : Stage P) (ordered : s.Ordered stage) (below : i < s.next)
    (free : ∀ t, ¬ At s.clients Client.replacement t i)
    (unswapped : ∀ t late r, ¬ At s.clients Client.work t (.swap late r, i)) :
    (∀ j, s.next ≤ j → Function.update stage i next j = .unborn) ∧
    (∀ t r, At s.clients Client.launching t r → Function.update stage i next r = .starting) ∧
    (∀ t r, At s.clients Client.prepared t r → Function.update stage i next r = .ready) ∧
    (∀ t late r target, At s.clients Client.work t (.swap late r, target) →
      Function.update stage i next target = .stopping) := by
  refine ⟨fun j beyond => ?_, fun t r waits => ?_, fun t r waits => ?_,
    fun t late r target inside => ?_⟩
  · have other : j ≠ i := by omega
    rw [Function.update_of_ne other]
    exact ordered.unborn j beyond
  · have other : r ≠ i := fun same => free t (same ▸ launchingReplacement waits)
    rw [Function.update_of_ne other]
    exact ordered.starting t r waits
  · have other : r ≠ i := fun same => free t (same ▸ preparedReplacement waits)
    rw [Function.update_of_ne other]
    exact ordered.prepared t r waits
  · have other : target ≠ i := fun same => unswapped t late r (same ▸ inside)
    rw [Function.update_of_ne other]
    exact ordered.swapping t late r target inside

omit [DecidableEq P] in
theorem installedCalm (linked : s.Linked) :
    (∀ t, ¬ At s.clients Client.replacement t s.installed) ∧
    ∀ t late r, ¬ At s.clients Client.work t (.swap late r, s.installed) :=
  ⟨fun t waits => (linked.pending t _ waits).2 rfl,
    fun t late r inside => (linked.swapping t late r _ inside).2.1 rfl⟩

theorem beginsOrdered {item : P} (linked : s.Linked) (ordered : s.Ordered stage)
    (waiting : s.worker = .waiting item) (free : s.locked = false) :
    State.Ordered { s with
      locked := true
      worker := .inside item s.installed
      calls := s.calls ++ [⟨s.installed, .process item, .begins⟩] }
      (Function.update stage s.installed (.busy (.process item))) := by
  have rest := restingFree linked ordered free
  obtain ⟨_, nobody⟩ := freeInside linked free
  obtain ⟨alone, unswapped⟩ := installedCalm linked
  obtain ⟨unborn, starting, prepared, swapping⟩ :=
    calmUpdate (.busy (.process item)) ordered linked.installed alone unswapped
  exact {
    log := stagedSnoc ⟨s.installed, .process item, .begins⟩ _ ordered.log (by rw [rest]; rfl)
    unborn := unborn
    starting := starting
    prepared := prepared
    swapping := swapping
    processing := fun other target inside => by
      cases inside
      exact Function.update_self _ _ _
    resetting := fun t target inside => absurd inside (nobody t _)
    resting := fun outside _ => absurd rfl (outside item s.installed)
    whole := by
      have whole := ordered.whole
      rw [waiting] at whole
      simpa [given, Worker.held] using whole
    quiet := ordered.quiet }

theorem finishesOrdered {item : P} {target : Nat} {after : Worker P} (linked : s.Linked)
    (ordered : s.Ordered stage) (inside : s.worker = .inside item target)
    (outside : after = .idle ∨ after = .gone) :
    State.Ordered { s with
      locked := false
      worker := after
      calls := s.calls ++ [⟨target, .process item, .ends⟩] }
      (Function.update stage target .ready) := by
  have same := linked.worker item target inside
  have busy := ordered.processing item target inside
  rw [← same] at busy
  obtain ⟨alone, unswapped⟩ := installedCalm linked
  rw [← same] at alone unswapped
  obtain ⟨unborn, starting, prepared, swapping⟩ :=
    calmUpdate .ready ordered (same ▸ linked.installed) alone unswapped
  have nobody (t : Nat) (work : Job × Nat) : ¬ At s.clients Client.work t work := by
    intro works
    have clash := linked.exclusive.one .worker (.client t) ⟨item, target, inside⟩ ⟨work, works⟩
    contradiction
  exact {
    log := stagedSnoc ⟨target, .process item, .ends⟩ .ready ordered.log (by
      change advance (stage target) _ _ = _
      rw [busy]
      simp [advance])
    unborn := unborn
    starting := starting
    prepared := prepared
    swapping := swapping
    processing := fun other i inside => by rcases outside with h | h <;> simp [h] at inside
    resetting := fun t i inside => absurd inside (nobody t _)
    resting := fun _ _ => by rw [← same]; exact Function.update_self _ _ _
    whole := by
      have whole := ordered.whole
      rw [inside] at whole
      rcases outside with h | h <;> simpa [h, given, Worker.held] using whole
    quiet := ordered.quiet }

theorem launchesOrdered {late : Bool} {name : N} (linked : s.Linked) (ordered : s.Ordered stage) :
    State.Ordered { s with
      next := s.next + 1
      clients := s.clients ++ [.starting late s.next]
      calls := s.calls ++ [⟨s.next, .start, .begins⟩]
      names := Function.update s.names s.next name }
      (Function.update stage s.next .starting) := by
  have known (i : Nat) (below : i < s.next) : Function.update stage s.next .starting i = stage i :=
    Function.update_of_ne (Nat.ne_of_lt below) _ _
  have old (view : Client → Option Nat) (hidden : view (.starting late s.next) = none) (t r : Nat)
      (waits : At (s.clients ++ [.starting late s.next]) view t r) : At s.clients view t r := by
    rcases atAppend.mp waits with ⟨_, waits⟩ | waits
    · rw [hidden] at waits
      contradiction
    · exact waits
  have work (t : Nat) (w : Job × Nat) :
      At (s.clients ++ [.starting late s.next]) Client.work t w ↔ At s.clients Client.work t w := by
    simp [atAppend, Client.work]
  exact {
    log := stagedSnoc ⟨s.next, .start, .begins⟩ .starting ordered.log (by
      change advance (stage s.next) _ _ = _
      rw [ordered.unborn s.next (Nat.le_refl _)]
      rfl)
    unborn := fun i beyond => by
      rw [Function.update_of_ne (Nat.ne_of_gt beyond)]
      exact ordered.unborn i (Nat.le_of_lt beyond)
    starting := fun t r waits => by
      rcases atAppend.mp waits with ⟨_, waits⟩ | waits
      · cases waits
        exact Function.update_self _ _ _
      · rw [known r (linked.pending t r (launchingReplacement waits)).1]
        exact ordered.starting t r waits
    prepared := fun t r waits => by
      have waits := old _ rfl t r waits
      rw [known r (linked.pending t r (preparedReplacement waits)).1]
      exact ordered.prepared t r waits
    swapping := fun t late r target inside => by
      have inside := (work t _).mp inside
      rw [known target (linked.swapping t late r target inside).2.2.1]
      exact ordered.swapping t late r target inside
    processing := fun item target inside =>
      (known _ linked.installed).trans (ordered.processing item target inside)
    resetting := fun t target inside =>
      (known _ linked.installed).trans (ordered.resetting t target ((work t _).mp inside))
    resting := fun outside nobody => (known _ linked.installed).trans
      (ordered.resting outside (fun t target inside => nobody t target ((work t _).mpr inside)))
    whole := by simpa [given] using ordered.whole
    quiet := fun client member => by
      rcases List.mem_append.mp member with member | member
      · exact ordered.quiet client member
      · cases List.mem_singleton.mp member
        trivial }

theorem asksOrdered {client : Client} (ordered : s.Ordered stage) (fresh : client.fresh false) :
    State.Ordered { s with clients := s.clients ++ [client], asked := s.asked || false } stage := by
  have bare : client = .waiting .reset ∨ client = .complete := by
    cases client with
    | waiting job => cases job <;> simp_all [Client.fresh]
    | complete => exact .inr rfl
    | joining => simp [Client.fresh] at fresh
    | starting late r => exact fresh.elim
    | inside job target => exact fresh.elim
  have hidden : client.launching = none ∧ client.prepared = none ∧ client.work = none ∧
      client.calm := by
    rcases bare with h | h <;> rw [h] <;> exact ⟨rfl, rfl, rfl, trivial⟩
  obtain ⟨launching, prepared, work, calm⟩ := hidden
  exact { ordered with
    log := ordered.log
    unborn := ordered.unborn
    starting := fun t r waits => ordered.starting t r (by
      simpa [atAppend, launching] using waits)
    prepared := fun t r waits => ordered.prepared t r (by
      simpa [atAppend, prepared] using waits)
    swapping := fun t late r target inside => ordered.swapping t late r target (by
      simpa [atAppend, work] using inside)
    processing := ordered.processing
    resetting := fun t target inside => ordered.resetting t target (by
      simpa [atAppend, work] using inside)
    resting := fun outside nobody => ordered.resting outside (fun t target inside =>
      nobody t target (by simpa [atAppend, work] using inside))
    whole := ordered.whole
    quiet := fun other member => by
      rcases List.mem_append.mp member with member | member
      · exact ordered.quiet other member
      · cases List.mem_singleton.mp member
        exact calm }

theorem clientOrdered {t r : Nat} {old new : Client} {call : Call P} {next : Stage P}
    (linked : s.Linked) (ordered : s.Ordered stage) (found : s.clients[t]? = some old)
    (mine : old.replacement = some r) (target : call.target = r)
    (advances : advance (stage r) call.method call.phase = some next)
    (plain : given [call] = []) (launching : new.launching = none)
    (prepared : ∀ q, new.prepared = some q → q = r ∧ next = .ready)
    (outside : old.work = none ∧ new.work = none) (calm : new.calm) :
    State.Ordered { s with clients := s.clients.set t new, calls := s.calls ++ [call] }
      (Function.update stage r next) := by
  have here : At s.clients Client.replacement t r := (atFound found).mpr mine
  obtain ⟨below, apart⟩ := linked.pending t r here
  have work (u : Nat) (w : Job × Nat) :
      At (s.clients.set t new) Client.work u w ↔ At s.clients Client.work u w := by
    rw [atSet found, outside.2]
    refine ⟨fun inside => ?_, fun inside => .inr ⟨fun same => ?_, inside⟩⟩
    · rcases inside with ⟨_, inside⟩ | ⟨_, inside⟩
      · contradiction
      · exact inside
    · rw [same, atFound found, outside.1] at inside
      contradiction
  have known (i : Nat) (other : i ≠ r) : Function.update stage r next i = stage i :=
    Function.update_of_ne other _ _
  have elsewhere (u q : Nat) (other : u ≠ t) (waits : At s.clients Client.replacement u q) :
      q ≠ r := fun same => other (linked.distinct u t r (same ▸ waits) here)
  subst target
  exact {
    log := stagedSnoc call next ordered.log advances
    unborn := fun i beyond => by
      rw [known i (by simp only at beyond; omega)]
      exact ordered.unborn i beyond
    starting := fun u q waits => by
      rcases (atSet found).mp waits with ⟨_, waits⟩ | ⟨other, waits⟩
      · rw [launching] at waits
        contradiction
      · rw [known q (elsewhere u q other (launchingReplacement waits))]
        exact ordered.starting u q waits
    prepared := fun u q waits => by
      rcases (atSet found).mp waits with ⟨_, waits⟩ | ⟨other, waits⟩
      · obtain ⟨same, ready⟩ := prepared q waits
        rw [same, Function.update_self, ready]
      · rw [known q (elsewhere u q other (preparedReplacement waits))]
        exact ordered.prepared u q waits
    swapping := fun u late q i inside => by
      have inside := (work u _).mp inside
      have apart : i ≠ call.target := fun same =>
        (linked.swapping u late q i inside).2.2.2 t (same ▸ here)
      rw [known i apart]
      exact ordered.swapping u late q i inside
    processing := fun item i inside =>
      (known _ (Ne.symm apart)).trans (ordered.processing item i inside)
    resetting := fun u i inside =>
      (known _ (Ne.symm apart)).trans (ordered.resetting u i ((work u _).mp inside))
    resting := fun outside nobody => (known _ (Ne.symm apart)).trans
      (ordered.resting outside (fun u i inside => nobody u i ((work u _).mpr inside)))
    whole := by
      have whole := ordered.whole
      simp only [given] at plain
      simpa [given, List.filterMap_append, plain] using whole
    quiet := fun other member => by
      rcases List.mem_or_eq_of_mem_set member with member | same
      · exact ordered.quiet other member
      · rw [same]
        exact calm }

/- A client enters, or is turned away after the flush; nobody is inside before. -/
theorem entersOrdered {t : Nat} {job : Job} {new : Client} {more : List (Call P)}
    {installed : Nat} {locked : Bool} {chosen : N} {next : Nat → Stage P} (linked : s.Linked)
    (ordered : s.Ordered stage) (found : s.clients[t]? = some (.waiting job))
    (free : s.locked = false) (log : Staged (s.calls ++ more) next) (plain : given more = [])
    (unborn : ∀ i, s.next ≤ i → next i = .unborn)
    (pending : ∀ u r, u ≠ t → At s.clients Client.replacement u r → next r = stage r)
    (hidden : new.launching = none ∧ new.prepared = none) (calm : new.calm)
    (swapping : ∀ late r target, new.work = some (.swap late r, target) →
      next target = .stopping)
    (resetting : ∀ target, new.work = some (.reset, target) → next installed = .busy .reset)
    (resting : (∀ target, new.work ≠ some (.reset, target)) → next installed = .ready) :
    State.Ordered { s with
      installed := installed, locked := locked, clients := s.clients.set t new
      calls := s.calls ++ more, chosen := chosen } next := by
  obtain ⟨outside, nobody⟩ := freeInside linked free
  have work (u : Nat) (w : Job × Nat) (inside : At (s.clients.set t new) Client.work u w) :
      new.work = some w := by
    rcases (atSet found).mp inside with ⟨_, inside⟩ | ⟨_, inside⟩
    · exact inside
    · exact absurd inside (nobody u w)
  exact {
    log := log
    unborn := unborn
    starting := fun u r waits => by
      rcases (atSet found).mp waits with ⟨_, waits⟩ | ⟨other, waits⟩
      · rw [hidden.1] at waits
        contradiction
      · exact (pending u r other (launchingReplacement waits)).trans (ordered.starting u r waits)
    prepared := fun u r waits => by
      rcases (atSet found).mp waits with ⟨_, waits⟩ | ⟨other, waits⟩
      · rw [hidden.2] at waits
        contradiction
      · exact (pending u r other (preparedReplacement waits)).trans (ordered.prepared u r waits)
    swapping := fun u late r target inside => swapping late r target (work u _ inside)
    processing := fun item target inside => absurd inside (outside item target)
    resetting := fun u target inside => resetting target (work u _ inside)
    resting := fun _ quiet => resting (fun target inside =>
      quiet t target ((atSet found).mpr (.inl ⟨rfl, inside⟩)))
    whole := by
      have whole := ordered.whole
      simp only [given] at plain
      simpa [given, List.filterMap_append, plain] using whole
    quiet := fun other member => by
      rcases List.mem_or_eq_of_mem_set member with member | same
      · exact ordered.quiet other member
      · rw [same]
        exact calm }

theorem leavesOrdered {t target : Nat} {job : Job} {chosen : N} (linked : s.Linked)
    (ordered : s.Ordered stage) (found : s.clients[t]? = some (.inside job target)) :
    ∃ next, State.Ordered { s with
      locked := false
      clients := s.clients.set t .complete
      calls := s.calls ++ [⟨target, job.method, .ends⟩]
      chosen := chosen } next := by
  have mine : At s.clients Client.work t (job, target) := (atFound found).mpr rfl
  have alone (u : Nat) (w : Job × Nat) (inside : At s.clients Client.work u w) : u = t :=
    Holder.client.inj (linked.exclusive.one (.client u) (.client t) ⟨w, inside⟩ ⟨_, mine⟩)
  have outside (item : P) (i : Nat) : s.worker ≠ .inside item i := by
    intro inside
    have clash := linked.exclusive.one .worker (.client t) ⟨item, i, inside⟩ ⟨_, mine⟩
    contradiction
  have nobody (u : Nat) (w : Job × Nat) : ¬ At (s.clients.set t .complete) Client.work u w := by
    intro inside
    rcases (atSet found).mp inside with ⟨_, inside⟩ | ⟨other, inside⟩
    · contradiction
    · exact other (alone u w inside)
  have old (view : Client → Option Nat) (hidden : view .complete = none) (u r : Nat)
      (waits : At (s.clients.set t .complete) view u r) : At s.clients view u r := by
    rcases (atSet found).mp waits with ⟨_, waits⟩ | ⟨_, waits⟩
    · rw [hidden] at waits
      contradiction
    · exact waits
  have complete (next : Nat → Stage P) (log : Staged (s.calls ++ [⟨target, job.method, .ends⟩]) next)
      (plain : given [(⟨target, job.method, .ends⟩ : Call P)] = [])
      (below : target < s.next) (apart : ∀ i, i ≠ target → next i = stage i)
      (free : ∀ u, ¬ At s.clients Client.replacement u target)
      (rest : next s.installed = .ready) :
      State.Ordered { s with
        locked := false
        clients := s.clients.set t .complete
        calls := s.calls ++ [⟨target, job.method, .ends⟩]
        chosen := chosen } next := {
    log := log
    unborn := fun i beyond => (apart i (by simp only at beyond; omega)).trans (ordered.unborn i beyond)
    starting := fun u r waits => by
      have waits := old _ rfl u r waits
      rw [apart r (fun same => free u (same ▸ launchingReplacement waits))]
      exact ordered.starting u r waits
    prepared := fun u r waits => by
      have waits := old _ rfl u r waits
      rw [apart r (fun same => free u (same ▸ preparedReplacement waits))]
      exact ordered.prepared u r waits
    swapping := fun u late r i inside => absurd inside (nobody u _)
    processing := fun item i inside => absurd inside (outside item i)
    resetting := fun u i inside => absurd inside (nobody u _)
    resting := fun _ _ => rest
    whole := by
      have whole := ordered.whole
      simp only [given] at plain
      simpa [given, List.filterMap_append, plain] using whole
    quiet := fun other member => by
      rcases List.mem_or_eq_of_mem_set member with member | same
      · exact ordered.quiet other member
      · rw [same]
        trivial }
  cases job with
  | reset =>
    have same := linked.resetting t target mine
    have busy := ordered.resetting t target mine
    rw [← same] at busy
    refine ⟨_, complete (Function.update stage target .ready) ?_ rfl (same ▸ linked.installed)
      (fun i other => Function.update_of_ne other _ _) ?_ (same ▸ Function.update_self _ _ _)⟩
    · refine stagedSnoc ⟨target, .reset, .ends⟩ .ready ordered.log ?_
      change advance (stage target) _ _ = _
      rw [busy]
      rfl
    · rw [same]
      exact (installedCalm linked).1
  | swap late r =>
    obtain ⟨_, other, below, free⟩ := linked.swapping t late r target mine
    refine ⟨_, complete (Function.update stage target .stopped) ?_ rfl below
      (fun i other => Function.update_of_ne other _ _) free ?_⟩
    · refine stagedSnoc ⟨target, .stop, .ends⟩ .stopped ordered.log ?_
      change advance (stage target) _ _ = _
      rw [ordered.swapping t late r target mine]
      rfl
    · rw [Function.update_of_ne (Ne.symm other)]
      refine ordered.resting outside (fun u i inside => ?_)
      cases alone u _ inside
      have same := (atFound found).mp inside
      cases same
  | shutdown =>
    obtain ⟨inside, same⟩ := List.getElem?_eq_some_iff.mp found
    have calm : Client.calm (.inside .shutdown target) :=
      same ▸ ordered.quiet _ (List.getElem_mem inside)
    exact calm.elim

theorem moveOrdered (move : Move s s') (linked : s.Linked)
    (ordered : s.asked = false → ∃ stage, s.Ordered stage) (unasked : s'.asked = false) :
    ∃ stage, s'.Ordered stage := by
  have calm {t : Nat} {client : Client} {stage : Nat → Stage P} (ordered : s.Ordered stage)
      (found : s.clients[t]? = some client) : client.calm := by
    obtain ⟨inside, same⟩ := List.getElem?_eq_some_iff.mp found
    exact ordered.quiet _ (same ▸ List.getElem_mem inside)
  cases move with
  | asks client stops fresh =>
    obtain ⟨before, rfl⟩ : s.asked = false ∧ stops = false := by simpa using unasked
    obtain ⟨stage, ordered⟩ := ordered before
    exact ⟨stage, asksOrdered ordered fresh⟩
  | takes item idle =>
    obtain ⟨stage, ordered⟩ := ordered unasked
    have whole := ordered.whole
    rw [idle] at whole
    refine ⟨stage, { ordered with
      processing := by intros; contradiction
      resting := fun _ nobody => ordered.resting (by simp [idle]) nobody
      whole := by simpa [Worker.held] using whole }⟩
  | quits t found outside =>
    obtain ⟨stage, ordered⟩ := ordered unasked
    exact (calm ordered found).elim
  | begins item waiting free =>
    obtain ⟨stage, ordered⟩ := ordered unasked
    exact ⟨_, beginsOrdered linked ordered waiting free⟩
  | finishes item target after inside outside =>
    obtain ⟨stage, ordered⟩ := ordered unasked
    exact ⟨_, finishesOrdered linked ordered inside outside⟩
  | launches late name =>
    obtain ⟨stage, ordered⟩ := ordered unasked
    exact ⟨_, launchesOrdered linked ordered⟩
  | starts t late r found =>
    obtain ⟨stage, ordered⟩ := ordered unasked
    have stage_r := ordered.starting t r ((atFound found).mpr rfl)
    refine ⟨_, clientOrdered linked ordered found rfl rfl (by rw [stage_r]; rfl) rfl rfl
      (fun q waits => ?_) ⟨rfl, rfl⟩ trivial⟩
    cases waits
    exact ⟨rfl, rfl⟩
  | fails t late r found =>
    obtain ⟨stage, ordered⟩ := ordered unasked
    have stage_r := ordered.starting t r ((atFound found).mpr rfl)
    exact ⟨_, clientOrdered linked ordered found rfl rfl (by rw [stage_r]; rfl) rfl rfl
      (fun q waits => by contradiction) ⟨rfl, rfl⟩ trivial⟩
  | joins t found =>
    obtain ⟨stage, ordered⟩ := ordered unasked
    exact (calm ordered found).elim
  | refuses t job found free =>
    obtain ⟨stage, ordered⟩ := ordered unasked
    have rest := restingFree linked ordered free
    exact ⟨stage, entersOrdered linked ordered found free (stagedFlushed ordered.log rest) rfl
      ordered.unborn (fun _ _ _ _ => rfl) ⟨rfl, rfl⟩ trivial (fun _ _ _ none => by contradiction)
      (fun _ none => by contradiction) (fun _ => rest)⟩
  | resets t found free =>
    obtain ⟨stage, ordered⟩ := ordered unasked
    have rest := restingFree linked ordered free
    refine ⟨Function.update stage s.installed (.busy .reset), entersOrdered linked ordered found free
      (stagedSnoc ⟨s.installed, .reset, .begins⟩ _ ordered.log (by rw [rest]; rfl)) rfl ?_ ?_
      ⟨rfl, rfl⟩ trivial (fun _ _ _ other => by cases other)
      (fun _ _ => Function.update_self _ _ _) (fun none => absurd rfl (none s.installed))⟩
    · intro i beyond
      have installed := linked.installed
      rw [Function.update_of_ne (by omega)]
      exact ordered.unborn i beyond
    · intro u r _ waits
      exact Function.update_of_ne (linked.pending u r waits).2 _ _
  | shuts t found free =>
    obtain ⟨stage, ordered⟩ := ordered unasked
    exact (calm ordered found).elim
  | swaps t late r found free =>
    obtain ⟨stage, ordered⟩ := ordered unasked
    have rest := restingFree linked ordered free
    have mine : At s.clients Client.prepared t r := (atFound found).mpr rfl
    have other := (linked.pending t r (preparedReplacement mine)).2
    have log := stagedSnoc ⟨s.installed, .stop, .begins⟩ .stopping (stagedFlushed ordered.log rest)
      (by rw [rest]; rfl)
    rw [List.append_assoc] at log
    refine ⟨Function.update stage s.installed .stopping, entersOrdered linked ordered found free log
      rfl ?_ ?_ ⟨rfl, rfl⟩ trivial (fun _ _ target same => ?_) (fun _ none => by cases none)
      (fun _ => ?_)⟩
    · intro i beyond
      have installed := linked.installed
      rw [Function.update_of_ne (by omega)]
      exact ordered.unborn i beyond
    · intro u q _ waits
      exact Function.update_of_ne (linked.pending u q waits).2 _ _
    · cases same
      exact Function.update_self _ _ _
    · rw [Function.update_of_ne other]
      exact ordered.prepared t r mine
  | leaves t job target found =>
    obtain ⟨stage, ordered⟩ := ordered unasked
    exact leavesOrdered linked ordered found

theorem movesOrdered (moves : Relation.ReflTransGen Move s s') (linked : s.Linked)
    (ordered : s.asked = false → ∃ stage, s.Ordered stage) (unasked : s'.asked = false) :
    ∃ stage, s'.Ordered stage := by
  induction moves with
  | refl => exact ordered unasked
  | tail moves move ih => exact moveOrdered move (movesLinked moves linked) ih unasked

end Preserved

end State

end HotSwap
