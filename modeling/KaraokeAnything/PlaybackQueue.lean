import Mathlib.Data.List.Induction
import Mathlib.Data.List.Nodup
import KaraokeAnything.Playback
import KaraokeAnything.ProtocolExact

/-! The playback queue over whole runs of datagrams and callbacks: what is played
and what is still queued, against what the accepted packets brought. -/
namespace KaraokeAnything.Playback
open ByteOrder Outcome Protocol

section Queue
variable {α β : Type}

def newest (count : Nat) (items : List α) : List α := items.drop (items.length - count)

theorem newestLength (count : Nat) (items : List α) :
    (newest count items).length = min count items.length := by
  rw [newest, List.length_drop]
  omega

theorem newestSplit (count : Nat) (items : List α) :
    items.take (items.length - count) ++ newest count items = items := List.take_append_drop _ _

theorem makeRoomExact (keep maxSamples : Nat) (queue : List α) :
    makeRoom keep maxSamples queue = queue.drop (queue.length + keep - maxSamples) := by
  induction queue with
  | nil => simp [makeRoom]
  | cons oldest queue ih =>
    rw [makeRoom]
    split
    · rename_i full
      have more : (oldest :: queue).length + keep - maxSamples =
          queue.length + keep - maxSamples + 1 := by
        rw [List.length_cons] at full ⊢
        omega
      rw [ih, more, List.drop_succ_cons]
    · rename_i fits
      rw [Nat.sub_eq_zero_of_le (Nat.not_lt.mp fits), List.drop_zero]

theorem bufferExact {queue : Queue α} (alive : queue.poisoned = false) (samples : List α)
    (maxSamples : Nat) : bufferSamples queue samples maxSamples =
      value { queue with samples := newest maxSamples (queue.samples ++ samples) } := by
  have room : makeRoom (min samples.length maxSamples) maxSamples queue.samples ++
      samples.drop (samples.length - min samples.length maxSamples) =
        newest maxSamples (queue.samples ++ samples) := by
    rw [makeRoomExact, newest, List.drop_append, List.length_append]
    have late : samples.length - min samples.length maxSamples =
        queue.samples.length + samples.length - maxSamples - queue.samples.length := by omega
    rw [late]
    by_cases fits : samples.length ≤ maxSamples
    · rw [Nat.min_eq_left fits]
    · have all (count : Nat) (enough : queue.samples.length ≤ count) :
          queue.samples.drop count = [] := List.drop_eq_nil_of_le enough
      rw [all _ (by omega), all _ (by omega)]
  simp only [bufferSamples, alive, Bool.false_eq_true, if_false, room]

theorem popExact (length : Nat) (queue : List α) :
    (popSamples length queue).1 =
      (queue.take length).map some ++ List.replicate (length - queue.length) none ∧
    (popSamples length queue).2 = queue.drop length := by
  induction length generalizing queue with
  | zero => simp [popSamples]
  | succ length ih =>
    cases queue with
    | nil => simp [popSamples, ih, List.replicate_succ]
    | cons sample queue => simp [popSamples, ih]

theorem popSilence (length : Nat) (queue : List α) (i : Nat) :
    (popSamples length queue).1[i]? = some none ↔ i < length ∧ queue.length ≤ i := by
  rw [(popExact length queue).1]
  by_cases played : i < (queue.take length).length
  · rw [List.getElem?_append_left (by rwa [List.length_map]), List.getElem?_map,
      List.getElem?_eq_getElem played]
    rw [List.length_take] at played
    simp only [Option.map_some, Option.some.injEq, reduceCtorEq, false_iff]
    omega
  · rw [List.getElem?_append_right (by rw [List.length_map]; omega), List.getElem?_replicate,
      List.length_map]
    rw [List.length_take] at played ⊢
    split
    · simp only [true_iff]
      omega
    · simp only [reduceCtorEq, false_iff]
      omega

end Queue

section Datagrams
variable {α β : Type}

def accepts (target : Target) (config : ReceiverConfig) (data : Bytes) : Option AudioPacket :=
  match decodePacket target data with
  | value packet =>
    if packet.channels = config.format.channels ∧ packet.sampleRate = config.format.sampleRate then
      some packet
    else none
  | _ => none

theorem handleIgnores {target : Target} {config : ReceiverConfig} {data : Bytes}
    (ignored : accepts target config data = none) (label : AudioPacket → List α)
    (receiver : Receiver α) :
    handleDatagram target label config data receiver = (value (), receiver) := by
  unfold accepts at ignored
  unfold handleDatagram
  have returns := decodeReturns target data
  cases decoded : decodePacket target data with
  | aborted => contradiction
  | error message => rfl
  | value packet =>
    rw [decoded] at ignored
    simp only at ignored ⊢
    split at ignored
    · contradiction
    · rename_i differs
      rw [if_pos (by tauto)]

theorem handleAccepts {target : Target} {config : ReceiverConfig} {data : Bytes}
    {packet : AudioPacket} (accepted : accepts target config data = some packet)
    (label : AudioPacket → List α) {receiver : Receiver α}
    (alive : receiver.queue.poisoned = false) :
    handleDatagram target label config data receiver = (value (), {
      expectedSequence := some (packet.sequence + 1)
      queue := { receiver.queue with
        samples := newest config.maxSamples (receiver.queue.samples ++ label packet) } }) := by
  unfold accepts at accepted
  cases decoded : decodePacket target data with
  | aborted => simp [decoded] at accepted
  | error message => simp [decoded] at accepted
  | value other =>
    simp only [decoded] at accepted
    split at accepted
    · rename_i format
      cases Option.some.inj accepted
      simp only [handleDatagram, decoded, format.1, format.2, ne_eq, not_true_eq_false, or_self,
        if_false, bufferExact alive]
    · contradiction

end Datagrams

section Erasure
variable {α β : Type} (f : α → β)

def Queue.map (queue : Queue α) : Queue β := { queue with samples := queue.samples.map f }

def Receiver.map (receiver : Receiver α) : Receiver β :=
  { receiver with queue := receiver.queue.map f }

def Client.map (client : Client α) : Client β where
  receiver := client.receiver.map f
  started := client.started
  written := client.written.map (List.map (Option.map f))

theorem makeRoomMap (keep maxSamples : Nat) (queue : List α) :
    makeRoom keep maxSamples (queue.map f) = (makeRoom keep maxSamples queue).map f := by
  rw [makeRoomExact, makeRoomExact, List.length_map, List.map_drop]

theorem bufferMap (queue : Queue α) (samples : List α) (maxSamples : Nat) :
    bufferSamples (queue.map f) (samples.map f) maxSamples =
      (bufferSamples queue samples maxSamples >>= fun kept => value (kept.map f)) := by
  unfold bufferSamples
  simp only [Queue.map, List.length_map, makeRoomMap]
  split
  · rfl
  · simp

theorem handleMap (target : Target) (label : AudioPacket → List α) (config : ReceiverConfig)
    (data : Bytes) (receiver : Receiver α) :
    handleDatagram target (fun packet => (label packet).map f) config data (receiver.map f) =
      ((handleDatagram target label config data receiver).1,
        (handleDatagram target label config data receiver).2.map f) := by
  unfold handleDatagram
  cases decodePacket target data with
  | aborted => rfl
  | error message => rfl
  | value packet =>
    simp only
    split
    · rfl
    · have kept := bufferMap f receiver.queue (label packet) config.maxSamples
      simp only [Receiver.map] at kept ⊢
      rw [kept]
      cases bufferSamples receiver.queue (label packet) config.maxSamples <;> rfl

theorem callbackMap (prebufferSamples length : Nat) (started : Bool) (queue : Queue α) :
    playbackCallback prebufferSamples length started (queue.map f) =
      let call := playbackCallback prebufferSamples length started queue
      (call.1.map (Option.map f), call.2.1, call.2.2.map f) := by
  unfold playbackCallback
  simp only [Queue.map, List.length_map]
  split
  · simp
  · split
    · simp
    · have popped := popExact length queue.samples
      have mapped := popExact length (queue.samples.map f)
      simp only [popped.1, popped.2, mapped.1, mapped.2, List.length_map, List.map_append,
        List.map_replicate, List.map_map, List.map_take, List.map_drop, Option.map_none]
      rfl

end Erasure

section Runs

/- A sample with the place it came from: the accepted packets count from zero on. -/
structure Sample where
  pattern : UInt32
  packet : Nat
  position : Nat
  deriving DecidableEq

def stamp (packet : Nat) (samples : List UInt32) : List Sample :=
  samples.zipIdx.map (fun (pattern, position) => ⟨pattern, packet, position⟩)

theorem stampPatterns (packet : Nat) (samples : List UInt32) :
    (stamp packet samples).map Sample.pattern = samples := by
  rw [stamp, List.map_map]
  exact List.zipIdx_map_fst 0 samples

structure World where
  client : Client Sample
  packets : Nat := 0
  accepted : List Sample := []
  evicted : List Sample := []

def World.queue (w : World) : List Sample := w.client.receiver.queue.samples

def World.played (w : World) : List Sample := w.client.written.flatten.filterMap id

variable (target : Target) (config : ReceiverConfig) (prebufferSamples : Nat)

def step (w : World) (event : Event) : World :=
  let label := fun packet : AudioPacket => stamp w.packets packet.samples
  let next := { w with client := w.client.step target label config prebufferSamples event }
  match event with
  | .callback _ => next
  | .datagram data =>
    match accepts target config data with
    | none => next
    | some packet =>
      let line := w.queue ++ label packet
      { next with
        packets := w.packets + 1
        accepted := w.accepted ++ label packet
        evicted := w.evicted ++ line.take (line.length - next.queue.length) }

def run (events : List Event) : World :=
  events.foldl (step target config prebufferSamples) { client := newClient Sample prebufferSamples }

variable {target config prebufferSamples}

theorem stepErases (w : World) (event : Event) :
    (step target config prebufferSamples w event).client.map Sample.pattern =
      (w.client.map Sample.pattern).step target (·.samples) config prebufferSamples event := by
  have same : (step target config prebufferSamples w event).client =
      w.client.step target (fun packet => stamp w.packets packet.samples) config prebufferSamples
        event := by
    cases event with
    | callback length => rfl
    | datagram data =>
      simp only [step]
      cases accepts target config data <;> rfl
  rw [same]
  cases event with
  | datagram data =>
    have mapped := handleMap Sample.pattern target
      (fun packet => stamp w.packets packet.samples) config data w.client.receiver
    simp only [stampPatterns] at mapped
    simp only [Client.step, Client.map, mapped]
  | callback length =>
    have mapped := callbackMap Sample.pattern prebufferSamples length w.client.started
      w.client.receiver.queue
    simp only [Client.step, Client.map, Receiver.map, mapped, List.map_append, List.map_cons,
      List.map_nil]

variable (target config prebufferSamples) in
theorem runErases (events : List Event) :
    (run target config prebufferSamples events).client.map Sample.pattern =
      clientRun target config prebufferSamples events := by
  induction events using List.reverseRecOn with
  | nil => rfl
  | append_singleton events event ih =>
    rw [run, clientRun, List.foldl_append, List.foldl_append]
    exact (stepErases _ event).trans (congrArg
      (fun client => client.step target (·.samples) config prebufferSamples event) ih)

def acceptedSamples (target : Target) (config : ReceiverConfig) (events : List Event) :
    List UInt32 :=
  events.flatMap (fun
    | .callback _ => []
    | .datagram data => ((accepts target config data).map (·.samples)).getD [])

/- A callback opens the latch over a queue that is long enough, and nothing closes it. -/
theorem callbackLatch {α : Type} (prebufferSamples length : Nat) (started : Bool)
    {queue : Queue α} (alive : queue.poisoned = false) :
    (playbackCallback prebufferSamples length started queue).2.1 =
      (started || decide (prebufferSamples ≤ queue.samples.length)) := by
  unfold playbackCallback
  simp only [alive, Bool.false_eq_true, if_false]
  split <;> rfl

theorem callbackSplits {α : Type} (prebufferSamples length : Nat) (started : Bool)
    {queue : Queue α} (alive : queue.poisoned = false) :
    let call := playbackCallback prebufferSamples length started queue
    call.1.length = length ∧ call.1.filterMap id ++ call.2.2.samples = queue.samples ∧
      call.2.2.poisoned = false ∧
      ∀ i < length, call.1[i]? = some none ↔ call.2.1 = false ∨ queue.samples.length ≤ i := by
  unfold playbackCallback
  simp only [alive, Bool.false_eq_true, if_false]
  cases playing : started || decide (prebufferSamples ≤ queue.samples.length) with
  | false =>
    simp only [Bool.false_eq_true, not_false_eq_true, if_true]
    refine ⟨List.length_replicate, ?_, alive, fun i inside => ?_⟩
    · rw [List.filterMap_replicate_of_none rfl, List.nil_append]
    · simp [inside]
  | true =>
    simp only [not_true_eq_false, if_false]
    obtain ⟨output, rest⟩ := popExact length queue.samples
    refine ⟨?_, ?_, trivial, fun i inside => ?_⟩
    · rw [output, List.length_append, List.length_map, List.length_take, List.length_replicate]
      omega
    · rw [output, rest, List.filterMap_append, List.filterMap_replicate_of_none rfl,
        List.append_nil, List.filterMap_map, Function.id_comp, List.filterMap_some,
        List.take_append_drop]
    · rw [popSilence]
      simp [inside]

structure Ledger (config : ReceiverConfig) (w : World) : Prop where
  alive : w.client.receiver.queue.poisoned = false
  bounded : w.queue.length ≤ config.maxSamples
  ordered : (w.played ++ w.queue).Sublist w.accepted
  placed : (w.played ++ w.evicted ++ w.queue).Perm w.accepted
  fresh : ∀ sample ∈ w.accepted, sample.packet < w.packets
  distinct : w.accepted.Nodup

theorem stampPacket {packet : Nat} {samples : List UInt32} {sample : Sample}
    (inside : sample ∈ stamp packet samples) : sample.packet = packet := by
  obtain ⟨origin, _, rfl⟩ := List.mem_map.mp inside
  rfl

theorem stampNodup (packet : Nat) (samples : List UInt32) : (stamp packet samples).Nodup := by
  have positions : ((stamp packet samples).map Sample.position).Nodup := by
    rw [stamp, List.map_map]
    change (samples.zipIdx.map Prod.snd).Nodup
    rw [List.zipIdx_map_snd]
    exact List.nodup_range'
  exact positions.of_map

variable (prebufferSamples) in
theorem acceptStep {w : World} {data : Bytes} {packet : AudioPacket}
    (accepted : accepts target config data = some packet)
    (alive : w.client.receiver.queue.poisoned = false) :
    let line := w.queue ++ stamp w.packets packet.samples
    let next := step target config prebufferSamples w (.datagram data)
    next.queue = newest config.maxSamples line ∧
      next.client.receiver.queue.poisoned = false ∧ next.client.written = w.client.written ∧
      next.client.started = w.client.started ∧
      next.packets = w.packets + 1 ∧ next.accepted = w.accepted ++ stamp w.packets packet.samples ∧
      next.evicted = w.evicted ++ line.take (line.length - config.maxSamples) := by
  simp only [step, accepted, Client.step, World.queue, handleAccepts accepted _ alive, alive,
    true_and]
  rw [newestLength]
  congr 2
  omega

theorem ignoreStep {w : World} {data : Bytes} (ignored : accepts target config data = none) :
    step target config prebufferSamples w (.datagram data) = w := by
  simp only [step, ignored, Client.step, handleIgnores ignored]

theorem ledgerStep {w : World} (ledger : Ledger config w) (event : Event) :
    Ledger config (step target config prebufferSamples w event) := by
  cases event with
  | datagram data =>
    cases taken : accepts target config data with
    | none => rwa [ignoreStep taken]
    | some packet =>
      obtain ⟨queue, alive, written, _, packets, accepted, evicted⟩ :=
        acceptStep prebufferSamples taken ledger.alive
      have played : (step target config prebufferSamples w (.datagram data)).played = w.played := by
        rw [World.played, written]
        rfl
      refine ⟨alive, ?_, ?_, ?_, ?_, ?_⟩
      · rw [queue, newestLength]
        exact Nat.min_le_left _ _
      · rw [played, queue, accepted]
        refine ((List.drop_sublist _ _).append_left w.played).trans ?_
        rw [← List.append_assoc]
        exact ledger.ordered.append_right _
      · rw [played, queue, accepted, evicted, ← List.append_assoc, List.append_assoc _ _ (newest _ _),
          newestSplit, ← List.append_assoc]
        exact ledger.placed.append_right _
      · intro sample inside
        rw [packets]
        rw [accepted, List.mem_append] at inside
        rcases inside with old | new
        · exact Nat.lt_succ_of_lt (ledger.fresh sample old)
        · rw [stampPacket new]
          exact Nat.lt_succ_self _
      · rw [accepted]
        refine ledger.distinct.append (stampNodup _ _) (fun sample old new => ?_)
        exact Nat.lt_irrefl _ (stampPacket new ▸ ledger.fresh sample old)
  | callback length =>
    obtain ⟨_, split, alive, _⟩ := callbackSplits prebufferSamples length w.client.started
      ledger.alive
    generalize call : playbackCallback prebufferSamples length w.client.started
      w.client.receiver.queue = output at split alive
    have next : step target config prebufferSamples w (.callback length) = { w with
        client := {
          receiver := { w.client.receiver with queue := output.2.2 }
          started := output.2.1
          written := w.client.written ++ [output.1] } } := by
      rw [← call]
      rfl
    have played : (step target config prebufferSamples w (.callback length)).played =
        w.played ++ output.1.filterMap id := by
      rw [next, World.played, List.flatten_append, List.filterMap_append, List.flatten_singleton]
      rfl
    have front : w.queue = output.1.filterMap id ++ output.2.2.samples := split.symm
    have ordered := ledger.ordered
    have placed := ledger.placed
    rw [front] at ordered placed
    refine ⟨?_, ?_, ?_, ?_, ?_, ?_⟩
    · rw [next]
      exact alive
    · rw [next]
      have less := ledger.bounded
      rw [front, List.length_append] at less
      exact Nat.le_of_add_left_le less
    · rw [played, next, List.append_assoc]
      exact ordered
    · rw [played, next]
      refine List.Perm.trans ?_ placed
      rw [List.append_assoc, List.append_assoc, List.append_assoc, ← List.append_assoc _ w.evicted,
        ← List.append_assoc w.evicted]
      exact (List.perm_append_comm.append_right _).append_left _
    · rw [next]
      exact ledger.fresh
    · rw [next]
      exact ledger.distinct

theorem ledgerHolds (target : Target) (config : ReceiverConfig) (prebufferSamples : Nat)
    (events : List Event) : Ledger config (run target config prebufferSamples events) := by
  induction events using List.reverseRecOn with
  | nil => exact ⟨rfl, Nat.zero_le _, List.Sublist.refl _, List.Perm.refl _, nofun, List.nodup_nil⟩
  | append_singleton events event ih =>
    rw [run, List.foldl_append]
    exact ledgerStep ih event

theorem acceptedPatterns (target : Target) (config : ReceiverConfig) (prebufferSamples : Nat)
    (events : List Event) : (run target config prebufferSamples events).accepted.map Sample.pattern =
      acceptedSamples target config events := by
  induction events using List.reverseRecOn with
  | nil => rfl
  | append_singleton events event ih =>
    have ledger := ledgerHolds target config prebufferSamples events
    rw [run, List.foldl_append, acceptedSamples, List.flatMap_append, ← acceptedSamples, ← ih,
      ← run]
    cases event with
    | callback length => exact (List.append_nil _).symm
    | datagram data =>
      cases taken : accepts target config data with
      | none => simp [ignoreStep taken, taken]
      | some packet =>
        simp [(acceptStep prebufferSamples taken ledger.alive).2.2.2.2.2.1,
          taken, stampPatterns]

theorem clientAlive (target : Target) (config : ReceiverConfig) (prebufferSamples : Nat)
    (events : List Event) :
    (clientRun target config prebufferSamples events).receiver.queue.poisoned = false := by
  rw [← runErases]
  exact (ledgerHolds target config prebufferSamples events).alive

def Prebuffered (target : Target) (config : ReceiverConfig) (prebufferSamples : Nat)
    (events : List Event) : Prop :=
  ∃ before length, before ++ [.callback length] <+: events ∧ prebufferSamples ≤
    (clientRun target config prebufferSamples before).receiver.queue.samples.length

theorem startedExactly (target : Target) (config : ReceiverConfig) (prebufferSamples : Nat)
    (events : List Event) : (clientRun target config prebufferSamples events).started = true ↔
      prebufferSamples = 0 ∨ Prebuffered target config prebufferSamples events := by
  induction events using List.reverseRecOn with
  | nil =>
    have never : ¬ Prebuffered target config prebufferSamples [] := by
      rintro ⟨before, length, cut, _⟩
      exact List.concat_ne_nil _ before (List.prefix_nil.mp cut)
    exact decide_eq_true_iff.trans (or_iff_left never).symm
  | append_singleton events event ih =>
    have alive := clientAlive target config prebufferSamples events
    have next : clientRun target config prebufferSamples (events ++ [event]) =
        (clientRun target config prebufferSamples events).step target (·.samples) config
          prebufferSamples event := List.foldl_append
    rw [next]
    cases event with
    | datagram data =>
      refine ih.trans (or_congr_right ⟨?_, ?_⟩)
      · rintro ⟨before, length, cut, long⟩
        exact ⟨before, length, cut.trans (List.prefix_append _ _), long⟩
      · rintro ⟨before, length, cut, long⟩
        refine ⟨before, length, (List.prefix_concat_iff.mp cut).resolve_left (fun whole => ?_), long⟩
        cases List.singleton_inj.mp (List.append_inj' whole rfl).2
    | callback length =>
      have latch := callbackLatch prebufferSamples length
        (clientRun target config prebufferSamples events).started alive
      refine (Bool.eq_iff_iff.mp latch).trans ?_
      rw [Bool.or_eq_true, ih, decide_eq_true_iff, or_assoc]
      refine or_congr_right ⟨?_, ?_⟩
      · rintro (⟨before, earlier, cut, long⟩ | now)
        · exact ⟨before, earlier, cut.trans (List.prefix_append _ _), long⟩
        · exact ⟨events, length, List.prefix_rfl, now⟩
      · rintro ⟨before, earlier, cut, long⟩
        rcases List.prefix_concat_iff.mp cut with whole | inside
        · exact .inr ((List.append_inj' whole rfl).1 ▸ long)
        · exact .inl ⟨before, earlier, inside, long⟩

/- The samples carry their places, so that one that is played twice would stand twice in a
subsequence of a list without repetitions. -/
theorem playbackPath (target : Target) (config : ReceiverConfig) (prebufferSamples : Nat)
    (events : List Event) :
    let client := clientRun target config prebufferSamples events
    let queue := client.receiver.queue
    let w := run target config prebufferSamples events
    (∀ data, let handled := handleDatagram target (·.samples) config data client.receiver
      handled.1 = value () ∧
      ((∀ packet, decodePacket target data = value packet →
          ¬(packet.channels = config.format.channels ∧
            packet.sampleRate = config.format.sampleRate)) →
        handled.2 = client.receiver) ∧
      ∀ packet, decodePacket target data = value packet →
        packet.channels = config.format.channels ∧
          packet.sampleRate = config.format.sampleRate →
        handled.2.queue.samples =
          newest config.maxSamples (queue.samples ++ packet.samples)) ∧
    queue.samples.length ≤ config.maxSamples ∧
    (∀ length, let call := playbackCallback prebufferSamples length client.started queue
      call.1.length = length ∧ call.1.filterMap id ++ call.2.2.samples = queue.samples ∧
      call.2.1 = (client.started || decide (prebufferSamples ≤ queue.samples.length)) ∧
      ∀ i < length, call.1[i]? = some none ↔ call.2.1 = false ∨ queue.samples.length ≤ i) ∧
    (client.started = true ↔
      prebufferSamples = 0 ∨ Prebuffered target config prebufferSamples events) ∧
    client = w.client.map Sample.pattern ∧
    w.accepted.map Sample.pattern = acceptedSamples target config events ∧ w.accepted.Nodup ∧
    (w.played ++ w.queue).Sublist w.accepted ∧
    w.accepted.length = w.played.length + w.evicted.length + w.queue.length := by
  have ledger := ledgerHolds target config prebufferSamples events
  have same := runErases target config prebufferSamples events
  have starts := startedExactly target config prebufferSamples events
  simp only
  rw [← same] at starts ⊢
  have alive : ((run target config prebufferSamples events).client.map
      Sample.pattern).receiver.queue.poisoned = false := ledger.alive
  refine ⟨fun data => ?_, ?_, fun length => ?_, starts, rfl, acceptedPatterns .., ledger.distinct,
    ledger.ordered, ?_⟩
  · cases taken : accepts target config data with
    | none =>
      rw [handleIgnores taken]
      refine ⟨rfl, fun _ => rfl, fun packet decoded format => ?_⟩
      simp [accepts, decoded, format] at taken
    | some packet =>
      rw [handleAccepts taken _ alive]
      refine ⟨rfl, fun differs => ?_, fun other decoded format => ?_⟩
      · simp only [accepts] at taken
        split at taken
        · rename_i other decoded
          simp [differs other decoded] at taken
        · contradiction
      · simp only [accepts, decoded, format, and_self, if_true, Option.some.injEq] at taken
        rw [taken]
  · rw [Client.map, Receiver.map, Queue.map, List.length_map]
    exact ledger.bounded
  · obtain ⟨size, split, _, silence⟩ := callbackSplits prebufferSamples length
      ((run target config prebufferSamples events).client.map Sample.pattern).started alive
    exact ⟨size, split, callbackLatch prebufferSamples length _ alive, silence⟩
  · rw [← ledger.placed.length_eq, List.length_append, List.length_append]

end Runs

end KaraokeAnything.Playback
