import KaraokeAnything.PlaybackQueue

/-! Left and right on playback: which buffer sizes keep every sample on the channel
it was recorded on. The queue must evict whole frames. -/
namespace KaraokeAnything.Playback
open ByteOrder Outcome Protocol WireFormat

def Interleaved (channels : Nat) (samples : List Sample) : Prop :=
  ∀ (i : Nat) (sample : Sample), samples[i]? = some sample →
    sample.position % channels = i % channels

def ChannelsKept (channels : Nat) (w : World) : Prop :=
  ∀ call ∈ w.client.written, ∀ (i : Nat) (sample : Sample), call[i]? = some (some sample) →
    sample.position % channels = i % channels

section Interleaving
variable {channels : Nat}

theorem interleavedAppend {front back : List Sample} (whole : channels ∣ front.length)
    (kept : Interleaved channels front) (added : Interleaved channels back) :
    Interleaved channels (front ++ back) := by
  intro i sample found
  by_cases old : i < front.length
  · exact kept i sample (by rwa [List.getElem?_append_left old] at found)
  · rw [List.getElem?_append_right (Nat.not_lt.mp old)] at found
    obtain ⟨frames, width⟩ := whole
    rw [width] at old
    rw [added _ sample found, width, Nat.sub_mul_mod (Nat.not_lt.mp old)]

theorem interleavedDrop {samples : List Sample} {count : Nat} (whole : channels ∣ count)
    (kept : Interleaved channels samples) : Interleaved channels (samples.drop count) := by
  intro i sample found
  rw [List.getElem?_drop] at found
  rw [kept _ sample found, Nat.add_mod, Nat.mod_eq_zero_of_dvd whole, Nat.zero_add, Nat.mod_mod]

theorem stampInterleaved (channels packet : Nat) (samples : List UInt32) :
    Interleaved channels (stamp packet samples) := by
  intro i sample found
  rw [stamp, List.getElem?_map, List.getElem?_zipIdx] at found
  obtain ⟨origin, inside, rfl⟩ := Option.map_eq_some_iff.mp found
  obtain ⟨pattern, _, rfl⟩ := Option.map_eq_some_iff.mp inside
  rw [Nat.zero_add]

theorem newestWhole {samples : List Sample} {count : Nat} (fits : channels ∣ count)
    (whole : channels ∣ samples.length) (kept : Interleaved channels samples) :
    channels ∣ (newest count samples).length ∧ Interleaved channels (newest count samples) := by
  have removed : channels ∣ samples.length - count := Nat.dvd_sub whole fits
  refine ⟨?_, interleavedDrop removed kept⟩
  rw [newest, List.length_drop]
  exact Nat.dvd_sub whole removed

end Interleaving

section Sizes
variable {build : Build} {config : StreamConfig} {cli : Cli} {sizing : PacketSizing}

def Build.samplesIn (build : Build) (config : StreamConfig) (milliseconds : UInt32) : Nat :=
  config.sampleRate.toNat * config.channels.toNat * milliseconds.toNat %
    build.target.usizeLimit / 1000

theorem mulExact {a b product : Nat} (multiplied : build.mul a b = value product) :
    product = a * b % build.target.usizeLimit := by
  unfold Build.mul mulBelow at multiplied
  split at multiplied
  · split at multiplied
    · rename_i fits
      rw [← value.inj multiplied, Nat.mod_eq_of_lt fits]
    · contradiction
  · exact (value.inj multiplied).symm

theorem sizingExact (computed : computePacketSizing build config cli = value sizing) :
    sizing.receiverConfig.format = ⟨config.channels, config.sampleRate⟩ ∧
    sizing.receiverConfig.maxSamples = build.samplesIn config cli.playbackBufferMs ∧
    sizing.prebufferSamples = build.samplesIn config cli.prebufferMs := by
  simp only [computePacketSizing, bindValue, pureValue, value.injEq] at computed
  obtain ⟨_, _, _, rate, _, played, _, again, _, filled, rfl⟩ := computed
  refine ⟨rfl, ?_, ?_⟩
  · rw [PacketSizing.receiverConfig, mulExact played, mulExact rate, Nat.mod_mul_mod]
    rfl
  · rw [mulExact filled, mulExact again, Nat.mod_mul_mod]
    rfl

end Sizes

section Kept
variable {target : Target} {config : ReceiverConfig} {prebufferSamples : Nat}

theorem acceptsWhole {data : Bytes} {packet : AudioPacket}
    (accepted : accepts target config data = some packet) :
    config.format.channels.toNat ≤ 255 ∧
      config.format.channels.toNat ∣ packet.samples.length := by
  unfold accepts at accepted
  split at accepted
  · rename_i other decoded
    split at accepted
    · rename_i format
      cases Option.some.inj accepted
      obtain ⟨good, rfl⟩ := (decodeValue target).mp decoded
      have encodable := packetAtEncodable good
      rw [← format.1, encodable.samples]
      exact ⟨encodable.channelsHigh, Nat.dvd_mul_left ..⟩
    · contradiction
  · contradiction

theorem callbackTakes {α : Type} (prebufferSamples length : Nat) (started : Bool)
    {queue : Queue α} (alive : queue.poisoned = false) :
    let call := playbackCallback prebufferSamples length started queue
    ∃ count, (count = 0 ∨ count = length) ∧ call.2.2.samples = queue.samples.drop count ∧
      ∀ (i : Nat) (sample : α), call.1[i]? = some (some sample) →
        queue.samples[i]? = some sample := by
  unfold playbackCallback
  simp only [alive, Bool.false_eq_true, if_false]
  split
  · refine ⟨0, .inl rfl, rfl, fun i sample found => ?_⟩
    have silence := List.mem_of_getElem? found
    simp at silence
  · obtain ⟨output, rest⟩ := popExact length queue.samples
    refine ⟨length, .inr rfl, rest, fun i sample found => ?_⟩
    rw [output] at found
    by_cases played : i < ((queue.samples.take length).map some).length
    · rw [List.getElem?_append_left played, List.getElem?_map, Option.map_eq_some_iff] at found
      obtain ⟨same, inside, equal⟩ := found
      rw [← Option.some.inj equal]
      rw [List.length_map, List.length_take] at played
      rwa [List.getElem?_take_of_lt (Nat.lt_of_lt_of_le played (Nat.min_le_left ..))] at inside
    · rw [List.getElem?_append_right (Nat.not_lt.mp played)] at found
      have silence := List.mem_of_getElem? found
      simp at silence

structure Aligned (channels : Nat) (w : World) : Prop where
  whole : channels ∣ w.queue.length
  queue : Interleaved channels w.queue
  written : ChannelsKept channels w

theorem alignedStep {w : World} {event : Event}
    (fits : config.format.channels.toNat ∣ config.maxSamples) (ledger : Ledger config w)
    (aligned : Aligned config.format.channels.toNat w)
    (frames : ∀ length, event = .callback length → config.format.channels.toNat ∣ length) :
    Aligned config.format.channels.toNat (step target config prebufferSamples w event) := by
  cases event with
  | datagram data =>
    cases taken : accepts target config data with
    | none => rwa [ignoreStep taken]
    | some packet =>
      obtain ⟨queue, _, written, _⟩ :=
        acceptStep prebufferSamples taken ledger.alive
      have added := (acceptsWhole taken).2
      have size : (stamp w.packets packet.samples).length = packet.samples.length := by
        rw [stamp, List.length_map, List.length_zipIdx]
      have line := newestWhole fits
        (by rw [List.length_append, size]; exact Nat.dvd_add aligned.whole added)
        (interleavedAppend aligned.whole aligned.queue
          (stampInterleaved _ w.packets packet.samples))
      rw [← queue] at line
      refine ⟨line.1, line.2, ?_⟩
      rw [ChannelsKept, written]
      exact aligned.written
  | callback length =>
    obtain ⟨count, taken, rest, front⟩ := callbackTakes prebufferSamples length
      w.client.started ledger.alive
    have whole : config.format.channels.toNat ∣ count := by
      rcases taken with none | all
      · exact none ▸ Nat.dvd_zero _
      · exact all ▸ frames length rfl
    have queue : (step target config prebufferSamples w (.callback length)).queue =
        w.queue.drop count := rest
    refine ⟨?_, ?_, ?_⟩
    · rw [queue, List.length_drop]
      exact Nat.dvd_sub aligned.whole whole
    · rw [queue]
      exact interleavedDrop whole aligned.queue
    · intro call written i sample found
      rcases List.mem_append.mp written with old | new
      · exact aligned.written call old i sample found
      · rw [List.mem_singleton.mp new] at found
        exact aligned.queue i sample (front i sample found)

theorem alignedRun (fits : config.format.channels.toNat ∣ config.maxSamples) {events : List Event}
    (frames : ∀ length, .callback length ∈ events → config.format.channels.toNat ∣ length) :
    Aligned config.format.channels.toNat (run target config prebufferSamples events) := by
  induction events using List.reverseRecOn with
  | nil => exact ⟨Nat.dvd_zero _, nofun, nofun⟩
  | append_singleton events event ih =>
    rw [run, List.foldl_append]
    refine alignedStep fits (ledgerHolds target config prebufferSamples events)
      (ih (fun length inside => frames length (List.mem_append_left _ inside)))
      (fun length same => frames length (List.mem_append_right _ ?_))
    rw [same]
    exact List.mem_singleton.mpr rfl

theorem nothingPlayed {channels : Nat} {w : World} (silent : w.played = []) :
    ChannelsKept channels w := by
  intro call written i sample found
  have played : sample ∈ w.played := List.mem_filterMap.mpr
    ⟨some sample, List.mem_flatten.mpr ⟨call, written, List.mem_of_getElem? found⟩, rfl⟩
  rw [silent] at played
  contradiction

theorem wideIgnored (wide : 255 < config.format.channels.toNat) (events : List Event) :
    acceptedSamples target config events = [] := by
  refine List.flatMap_eq_nil_iff.mpr (fun event _ => ?_)
  cases event with
  | callback length => rfl
  | datagram data =>
    cases taken : accepts target config data with
    | none => simp [taken]
    | some packet => exact absurd (acceptsWhole taken).1 (Nat.not_le.mpr wide)

theorem wideSilent (wide : 255 < config.format.channels.toNat) (events : List Event) :
    (run target config prebufferSamples events).played = [] := by
  have ledger := ledgerHolds target config prebufferSamples events
  have none : acceptedSamples target config events = [] := wideIgnored wide events
  rw [← acceptedPatterns target config prebufferSamples, List.map_eq_nil_iff] at none
  have placed := ledger.placed
  rw [none, List.perm_nil, List.append_eq_nil_iff, List.append_eq_nil_iff] at placed
  exact placed.1.1

theorem shortSilent (short : config.maxSamples < prebufferSamples) (events : List Event) :
    (run target config prebufferSamples events).client.started = false ∧
      (run target config prebufferSamples events).played = [] := by
  induction events using List.reverseRecOn with
  | nil =>
    refine ⟨?_, rfl⟩
    simp only [run, List.foldl_nil, newClient, decide_eq_false_iff_not]
    omega
  | append_singleton events event ih =>
    have ledger := ledgerHolds target config prebufferSamples events
    rw [run, List.foldl_append, ← run]
    generalize run target config prebufferSamples events = w at ih ledger
    cases event with
    | datagram data =>
      cases taken : accepts target config data with
      | none =>
        rw [List.foldl_cons, List.foldl_nil, ignoreStep taken]
        exact ih
      | some packet =>
        obtain ⟨_, _, written, started, _⟩ :=
          acceptStep prebufferSamples taken ledger.alive
        rw [List.foldl_cons, List.foldl_nil, World.played, started, written]
        exact ih
    | callback length =>
      have waits : ¬ prebufferSamples ≤ w.client.receiver.queue.samples.length :=
        Nat.not_le.mpr (Nat.lt_of_le_of_lt ledger.bounded short)
      have call : playbackCallback prebufferSamples length w.client.started
          w.client.receiver.queue =
            (List.replicate length none, false, w.client.receiver.queue) := by
        simp [playbackCallback, ledger.alive, ih.1, waits]
      refine ⟨congrArg (·.2.1) call, ?_⟩
      have played : (step target config prebufferSamples w (.callback length)).played =
          (w.client.written ++ [List.replicate length none]).flatten.filterMap id :=
        congrArg (fun output => (w.client.written ++ [output.1]).flatten.filterMap id) call
      rw [List.foldl_cons, List.foldl_nil, played, List.flatten_append, List.filterMap_append,
        List.flatten_singleton, List.filterMap_replicate_of_none rfl, List.append_nil]
      exact ih.2

end Kept

section Swapped
variable {target : Target} {config : ReceiverConfig} {prebufferSamples : Nat}

def frameOf (format : AudioFormat) : AudioPacket := silentFrame format.channels format.sampleRate

def flood (config : ReceiverConfig) : List Event :=
  List.replicate config.maxSamples (.datagram (datagram (frameOf config.format))) ++
    [.callback config.format.channels.toNat]

variable (target) in
theorem frameAccepted (audible : 1 ≤ config.format.channels.toNat)
    (narrow : config.format.channels.toNat ≤ 255) :
    accepts target config (datagram (frameOf config.format)) = some (frameOf config.format) := by
  have encodable := silentFrameEncodable config.format.channels config.format.sampleRate audible narrow
  have decoded := (decodeValue target).mpr
    ⟨datagramWellFormed encodable, (packetAtDatagram encodable).symm⟩
  rw [frameOf, accepts, decoded]
  exact if_pos ⟨rfl, rfl⟩

theorem newestAppend {α : Type} (count : Nat) (front back : List α) :
    newest count (newest count front ++ back) = newest count (front ++ back) := by
  rw [newest, newest, newest, List.drop_append, List.drop_append, List.drop_drop,
    List.length_append, List.length_append, List.length_drop]
  congr 2 <;> omega

variable (prebufferSamples) in
theorem floodQueue {data : Bytes} {packet : AudioPacket}
    (taken : accepts target config data = some packet) (count : Nat) :
    let w := run target config prebufferSamples (List.replicate count (.datagram data))
    w.queue = newest config.maxSamples w.accepted ∧ w.client.written = [] ∧
      w.accepted.length = count * packet.samples.length ∧
      Interleaved config.format.channels.toNat w.accepted := by
  induction count with
  | zero => exact ⟨by simp [run, World.queue, newClient, newest], rfl, by simp [run], nofun⟩
  | succ count ih =>
    simp only at ih ⊢
    have ledger := ledgerHolds target config prebufferSamples
      (List.replicate count (.datagram data))
    rw [List.replicate_succ', run, List.foldl_append, ← run]
    generalize run target config prebufferSamples (List.replicate count (.datagram data)) = w
      at ih ledger
    obtain ⟨queue, written, size, kept⟩ := ih
    obtain ⟨next, _, wrote, _, _, accepted, _⟩ :=
      acceptStep prebufferSamples taken ledger.alive
    have stamped : (stamp w.packets packet.samples).length = packet.samples.length := by
      rw [stamp, List.length_map, List.length_zipIdx]
    have whole : config.format.channels.toNat ∣ w.accepted.length :=
      size ▸ Nat.dvd_mul_left_of_dvd (acceptsWhole taken).2 _
    rw [List.foldl_cons, List.foldl_nil, next, wrote, accepted, queue]
    refine ⟨newestAppend .., written, ?_, interleavedAppend whole kept (stampInterleaved _ _ _)⟩
    rw [List.length_append, size, stamped, Nat.succ_mul]

variable (prebufferSamples) in
theorem callbackPlays {α : Type} {length : Nat} (started : Bool) {queue : Queue α}
    (some : 0 < length) (alive : queue.poisoned = false)
    (starts : prebufferSamples ≤ queue.samples.length) (room : 0 < queue.samples.length) :
    (playbackCallback prebufferSamples length started queue).1[0]? =
      Option.some (Option.some (queue.samples[0])) := by
  have output := (popExact length queue.samples).1
  simp [playbackCallback, alive, starts, output, some, room]

variable (target config prebufferSamples) in
/- A queue with room for a part of a frame shifts the channels once it is full. -/
theorem floodSwaps (audible : 1 ≤ config.format.channels.toNat)
    (narrow : config.format.channels.toNat ≤ 255)
    (ragged : ¬ config.format.channels.toNat ∣ config.maxSamples)
    (starts : prebufferSamples ≤ config.maxSamples) :
    ¬ ChannelsKept config.format.channels.toNat (run target config prebufferSamples (flood config)) := by
  intro kept
  obtain ⟨queue, _, size, places⟩ := floodQueue prebufferSamples
    (frameAccepted target audible narrow) config.maxSamples
  have ledger := ledgerHolds target config prebufferSamples
    (List.replicate config.maxSamples (.datagram (datagram (frameOf config.format))))
  rw [flood, run, List.foldl_append, ← run] at kept
  generalize run target config prebufferSamples
    (List.replicate config.maxSamples (.datagram (datagram (frameOf config.format)))) = w
    at kept queue size places ledger
  rw [frameOf, silentFrame, List.length_replicate] at size
  have enough : config.maxSamples ≤ w.accepted.length := size ▸ Nat.le_mul_of_pos_right _ audible
  have full : w.queue.length = config.maxSamples := by
    rw [queue, newestLength, Nat.min_eq_left enough]
  have room : 0 < w.queue.length := by
    rw [full]
    exact Nat.pos_of_ne_zero (fun empty => ragged (empty ▸ Nat.dvd_zero _))
  have played := callbackPlays prebufferSamples w.client.started audible ledger.alive (full ▸ starts) room
  have written : (playbackCallback prebufferSamples config.format.channels.toNat
      w.client.started w.client.receiver.queue).1 ∈
        (step target config prebufferSamples w (.callback _)).client.written :=
    List.mem_append_right _ (List.mem_singleton.mpr rfl)
  have first := kept _ written 0 _ played
  have place := places (w.accepted.length - config.maxSamples) (w.queue[0])
    (by rw [← Nat.add_zero (_ - _), ← List.getElem?_drop, ← newest, ← queue,
      List.getElem?_eq_getElem room])
  have whole : config.format.channels.toNat ∣ w.accepted.length - config.maxSamples :=
    Nat.dvd_of_mod_eq_zero (place.symm.trans (first.trans (Nat.zero_mod _)))
  exact ragged ((Nat.dvd_sub_iff_right enough (size ▸ Nat.dvd_mul_left ..)).mp whole)

end Swapped

section Channels

theorem channelsNeverSwap (build : Build) (config : StreamConfig) (cli : Cli)
    (sizing : PacketSizing) (computed : computePacketSizing build config cli = value sizing)
    (audible : 1 ≤ config.channels.toNat) :
    (∀ events : List Event,
      (∀ length, .callback length ∈ events → config.channels.toNat ∣ length) →
      ChannelsKept config.channels.toNat
        (run build.target sizing.receiverConfig sizing.prebufferSamples events)) ↔
    255 < config.channels.toNat ∨
      config.channels.toNat ∣ build.samplesIn config cli.playbackBufferMs ∨
      build.samplesIn config cli.playbackBufferMs < build.samplesIn config cli.prebufferMs := by
  obtain ⟨format, playback, prebuffer⟩ := sizingExact computed
  have width : sizing.receiverConfig.format.channels = config.channels := by rw [format]
  rw [← playback, ← prebuffer, ← width]
  rw [← width] at audible
  constructor
  · intro kept
    by_contra bad
    obtain ⟨narrow, ragged, starts⟩ : _ ∧ _ ∧ _ := by simpa only [not_or, Nat.not_lt] using bad
    refine floodSwaps _ _ _ audible narrow ragged starts (kept _ (fun length inside => ?_))
    rcases List.mem_append.mp inside with datagram | callback
    · have other := List.eq_of_mem_replicate datagram
      contradiction
    · cases List.mem_singleton.mp callback
      exact Nat.dvd_refl _
  · rintro (wide | fits | short) events frames
    · exact nothingPlayed (wideSilent wide events)
    · exact (alignedRun fits frames).written
    · exact nothingPlayed (shortSilent short events).2

theorem channelsNeverSwapStereo : ∃ sizing,
    computePacketSizing ⟨.bits64, false⟩ ⟨48000, 2⟩ ⟨2.5, 250, 30⟩ = value sizing ∧
    ∀ events : List Event, (∀ length, .callback length ∈ events → 2 ∣ length) →
      ChannelsKept 2 (run .bits64 sizing.receiverConfig sizing.prebufferSamples events) :=
  ⟨_, rfl, (channelsNeverSwap ⟨.bits64, false⟩ ⟨48000, 2⟩ ⟨2.5, 250, 30⟩ _ rfl (by decide)).mpr
    (.inr (.inl (by decide)))⟩

theorem channelsSwapAtHalfRate : ¬ ∀ (build : Build) (config : StreamConfig) (cli : Cli)
    (sizing : PacketSizing), computePacketSizing build config cli = value sizing →
    1 ≤ config.channels.toNat → ∀ events : List Event,
      (∀ length, .callback length ∈ events → config.channels.toNat ∣ length) →
      ChannelsKept config.channels.toNat
        (run build.target sizing.receiverConfig sizing.prebufferSamples events) := by
  intro kept
  refine floodSwaps .bits64 ⟨⟨2, 22050⟩, 11025⟩ 1323 (by decide) (by decide) (by decide) (by decide) ?_
  refine kept ⟨.bits64, false⟩ ⟨22050, 2⟩ ⟨2.5, 250, 30⟩ _ rfl (by decide) _
    (fun length inside => ?_)
  rcases List.mem_append.mp inside with datagram | callback
  · have other := List.eq_of_mem_replicate datagram
    contradiction
  · cases List.mem_singleton.mp callback
    exact Nat.dvd_refl _

end Channels

end KaraokeAnything.Playback
