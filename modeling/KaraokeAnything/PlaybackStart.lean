import KaraokeAnything.PlaybackChannels

/-! When playback begins: the queue must be able to hold what the latch waits for. -/
namespace KaraokeAnything.Playback
open ByteOrder Outcome Protocol

section Latch
variable {α : Type} {prebufferSamples : Nat} {queue : Queue α}

theorem callbackWaits (length : Nat) {started : Bool} (alive : queue.poisoned = false)
    (waiting : (playbackCallback prebufferSamples length started queue).2.1 = false) :
    started = false ∧ (playbackCallback prebufferSamples length started queue).2.2 = queue := by
  unfold playbackCallback at waiting ⊢
  simp only [alive, Bool.false_eq_true, if_false] at waiting ⊢
  cases playing : started || decide (prebufferSamples ≤ queue.samples.length) with
  | false => exact ⟨(Bool.or_eq_false_iff.mp playing).1, rfl⟩
  | true => simp [playing] at waiting

theorem callbackStarts (length : Nat) (alive : queue.poisoned = false) :
    (playbackCallback prebufferSamples length false queue).2.1 = true ↔
      prebufferSamples ≤ queue.samples.length := by
  rw [callbackLatch prebufferSamples length false alive, Bool.false_or, decide_eq_true_iff]

theorem callbackPops (length : Nat) {started : Bool} (alive : queue.poisoned = false)
    (starts : (playbackCallback prebufferSamples length started queue).2.1 = true) :
    (playbackCallback prebufferSamples length started queue).1.filterMap id =
      queue.samples.take length := by
  unfold playbackCallback at starts ⊢
  simp only [alive, Bool.false_eq_true, if_false] at starts ⊢
  cases playing : started || decide (prebufferSamples ≤ queue.samples.length) with
  | false => simp [playing] at starts
  | true =>
    simp only [not_true_eq_false, if_false]
    rw [(popExact length queue.samples).1, List.filterMap_append,
      List.filterMap_replicate_of_none rfl, List.append_nil, List.filterMap_map, Function.id_comp,
      List.filterMap_some]

end Latch

section Waiting
variable {target : Target} {config : ReceiverConfig} {prebufferSamples : Nat}

theorem waitingQueue (target : Target) (config : ReceiverConfig) (prebufferSamples : Nat)
    (events : List Event) :
    let w := run target config prebufferSamples events
    w.client.started = false → 0 < prebufferSamples ∧ w.queue = newest config.maxSamples w.accepted := by
  induction events using List.reverseRecOn with
  | nil =>
    intro w waiting
    refine ⟨Nat.pos_of_ne_zero (of_decide_eq_false waiting), ?_⟩
    simp [w, run, World.queue, newClient, newest]
  | append_singleton events event ih =>
    have ledger := ledgerHolds target config prebufferSamples events
    simp only at ih ⊢
    rw [run, List.foldl_append, ← run, List.foldl_cons, List.foldl_nil]
    generalize run target config prebufferSamples events = w at ih ledger
    intro waiting
    cases event with
    | datagram data =>
      cases taken : accepts target config data with
      | none =>
        rw [ignoreStep taken] at waiting ⊢
        exact ih waiting
      | some packet =>
        obtain ⟨queue, _, _, started, _, accepted, _⟩ :=
          acceptStep prebufferSamples taken ledger.alive
        obtain ⟨positive, before⟩ := ih (started.symm.trans waiting)
        refine ⟨positive, ?_⟩
        rw [queue, accepted, before, newestAppend]
    | callback length =>
      obtain ⟨still, same⟩ := callbackWaits length ledger.alive waiting
      obtain ⟨positive, before⟩ := ih still
      exact ⟨positive, (congrArg Queue.samples same).trans before⟩

end Waiting

section Start

def Starts (target : Target) (config : ReceiverConfig) (prebufferSamples : Nat)
    (events : List Event) : Prop :=
  let client := clientRun target config prebufferSamples events
  client.started = false → prebufferSamples ≤ (acceptedSamples target config events).length →
    ∀ length, 0 < length →
      let call := playbackCallback prebufferSamples length client.started client.receiver.queue
      call.2.1 = true ∧ call.1.filterMap id = client.receiver.queue.samples.take length ∧
        call.1.filterMap id ≠ []

theorem startsExact (target : Target) (config : ReceiverConfig) (prebufferSamples : Nat)
    (events : List Event) : Starts target config prebufferSamples events ↔
      ((clientRun target config prebufferSamples events).started = false →
        prebufferSamples ≤ (acceptedSamples target config events).length →
          prebufferSamples ≤ config.maxSamples) := by
  have ledger := ledgerHolds target config prebufferSamples events
  have waits := waitingQueue target config prebufferSamples events
  have patterns := acceptedPatterns target config prebufferSamples events
  have same := runErases target config prebufferSamples events
  simp only at waits
  rw [← patterns, List.length_map, ← same]
  rw [Starts, ← same, ← patterns, List.length_map]
  generalize run target config prebufferSamples events = w at ledger waits
  have alive : (w.client.map Sample.pattern).receiver.queue.poisoned = false := ledger.alive
  have size : (w.client.map Sample.pattern).receiver.queue.samples.length = w.queue.length :=
    List.length_map _
  refine forall₂_congr fun waiting enough => ?_
  obtain ⟨positive, queue⟩ := waits waiting
  have held : w.queue.length = min config.maxSamples w.accepted.length := by
    rw [queue, newestLength]
  rw [waiting]
  constructor
  · intro starts
    have opened := (callbackStarts 1 alive).mp (starts 1 Nat.one_pos).1
    omega
  · intro room length some
    have long : prebufferSamples ≤ (w.client.map Sample.pattern).receiver.queue.samples.length := by
      omega
    have opened := (callbackStarts length alive).mpr long
    have played := callbackPops length alive opened
    refine ⟨opened, played, fun silent => ?_⟩
    rw [played, List.take_eq_nil_iff] at silent
    rcases silent with none | empty
    · omega
    · rw [empty, List.length_nil] at size
      omega

end Start

section Sizes
variable {build : Build} {config : StreamConfig} {cli : Cli} {sizing : PacketSizing}

theorem datagramsWait (target : Target) (receiver : ReceiverConfig) (prebufferSamples : Nat)
    (data : Bytes) (count : Nat) :
    (clientRun target receiver prebufferSamples
      (List.replicate count (.datagram data))).started = decide (prebufferSamples = 0) := by
  induction count with
  | zero => rfl
  | succ count ih =>
    rw [List.replicate_succ', clientRun, List.foldl_append, ← clientRun, List.foldl_cons,
      List.foldl_nil, Client.step]
    exact ih

theorem framesWait (target : Target) {receiver : ReceiverConfig} {prebufferSamples : Nat}
    (audible : 1 ≤ receiver.format.channels.toNat) (narrow : receiver.format.channels.toNat ≤ 255)
    (positive : 0 < prebufferSamples) :
    let events := List.replicate prebufferSamples
      (.datagram (datagram (frameOf receiver.format)))
    (clientRun target receiver prebufferSamples events).started = false ∧
      prebufferSamples ≤ (acceptedSamples target receiver events).length := by
  intro events
  obtain ⟨_, _, size, _⟩ := floodQueue prebufferSamples
    (frameAccepted target audible narrow) prebufferSamples
  have width : (frameOf receiver.format).samples.length = receiver.format.channels.toNat :=
    List.length_replicate
  have accepted := congrArg List.length (acceptedPatterns target receiver prebufferSamples events)
  rw [List.length_map] at accepted
  refine ⟨?_, ?_⟩
  · rw [datagramsWait, decide_eq_false_iff_not]
    exact Nat.ne_of_gt positive
  · rw [← accepted, size, width]
    exact Nat.le_mul_of_pos_right _ audible

theorem playbackStarts (build : Build) (config : StreamConfig) (cli : Cli) (sizing : PacketSizing)
    (computed : computePacketSizing build config cli = value sizing) :
    (∀ events, Starts build.target sizing.receiverConfig sizing.prebufferSamples events) ↔
      build.samplesIn config cli.prebufferMs ≤ build.samplesIn config cli.playbackBufferMs ∨
        255 < config.channels.toNat := by
  obtain ⟨format, playback, prebuffer⟩ := sizingExact computed
  have width : sizing.receiverConfig.format.channels = config.channels := by rw [format]
  simp only [startsExact]
  rw [← playback, ← prebuffer]
  constructor
  · intro starts
    by_contra bad
    obtain ⟨long, narrow⟩ : _ ∧ _ := by simpa only [not_or, Nat.not_le, Nat.not_lt] using bad
    have audible : 1 ≤ config.channels.toNat := by
      refine Nat.pos_of_ne_zero (fun silent => ?_)
      rw [prebuffer, Build.samplesIn, silent] at long
      simp at long
    rw [← width] at audible narrow
    obtain ⟨waiting, enough⟩ := framesWait build.target audible narrow (Nat.zero_lt_of_lt long)
    exact absurd (starts _ waiting enough) (Nat.not_le.mpr long)
  · rintro (room | wide) events waiting enough
    · exact room
    · rw [wideIgnored (width ▸ wide), List.length_nil] at enough
      exact enough.trans (Nat.zero_le _)

theorem playbackStartsStereo : ∃ sizing,
    computePacketSizing ⟨.bits64, false⟩ ⟨48000, 2⟩ ⟨2.5, 250, 30⟩ = value sizing ∧
    ∀ events, Starts .bits64 sizing.receiverConfig sizing.prebufferSamples events :=
  ⟨_, rfl, (playbackStarts ⟨.bits64, false⟩ ⟨48000, 2⟩ ⟨2.5, 250, 30⟩ _ rfl).mpr
    (.inl (by decide))⟩

theorem playbackNeverStarts : ¬ ∀ (build : Build) (config : StreamConfig) (cli : Cli)
    (sizing : PacketSizing), computePacketSizing build config cli = value sizing →
    ∀ events, Starts build.target sizing.receiverConfig sizing.prebufferSamples events := by
  intro starts
  have silent := @framesWait .bits64 ⟨⟨2, 48000⟩, 24000⟩ 28800 (by decide) (by decide) (by decide)
  have opens := starts ⟨.bits64, false⟩ ⟨48000, 2⟩ ⟨2.5, 250, 300⟩ _ rfl
    (List.replicate 28800 (.datagram (datagram (frameOf ⟨2, 48000⟩))))
  rw [startsExact] at opens
  exact absurd (opens silent.1 silent.2) (by decide)

end Sizes

end KaraokeAnything.Playback
