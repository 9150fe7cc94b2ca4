import Mathlib.Data.List.Infix
import KaraokeAnything.PacketSizes

/-! The devices and formats of a client: client/src/device_selection.rs, client/src/device.rs
and what client/src/main.rs sets up from them. A host answers what cpal would; where it has
no answer, cpal returned an error. -/
namespace KaraokeAnything.Devices
open ByteOrder Capturing Outcome Protocol
open Playback (AudioFormat Build PacketSizing ReceiverConfig StreamConfig computePacketSizing)

section Selection
variable {δ : Type}

def contains (text needle : String) : Bool := decide (needle.toList <:+: text.toList)

structure Names (δ : Type) where
  displayName : δ → String
  toLowercase : String → String

def Names.matches (names : Names δ) (needle : String) (device : δ) : Bool :=
  contains (names.toLowercase (names.displayName device)) (names.toLowercase needle)

def selectDevice (names : Names δ) (devices : List δ) (needle : Option String) (default : Option δ)
    (kind : String) : Outcome δ :=
  match needle with
  | some needle =>
    match devices.filter (names.matches needle) with
    | [] => error s!"no {kind} device contains '{names.toLowercase needle}'"
    | [device] => value device
    | matching =>
      let found := String.intercalate ", " (matching.map names.displayName)
      error s!"{kind} device selector is ambiguous: {found}"
  | none =>
    match default with
    | some device => value device
    | none => error s!"no default {kind} device is available"

end Selection

section Configs

inductive SampleFormat where
  | f32
  | other (name : String)
  deriving DecidableEq, Repr

structure SupportedStreamConfigRange where
  channels : UInt16
  minSampleRate : UInt32
  maxSampleRate : UInt32
  sampleFormat : SampleFormat
  deriving DecidableEq, Repr

structure SupportedStreamConfig where
  channels : UInt16
  sampleRate : UInt32
  sampleFormat : SampleFormat
  deriving DecidableEq, Repr

/- The methods of cpal's configurations, as far as they are documented. Nothing is known of
`with_sample_rate` outside the range, where it panics. -/
structure Cpal where
  withSampleRate : SupportedStreamConfigRange → UInt32 → Outcome SupportedStreamConfig
  config : SupportedStreamConfig → StreamConfig
  inRange : ∀ range rate, range.minSampleRate ≤ rate → rate ≤ range.maxSampleRate →
    withSampleRate range rate = value ⟨range.channels, rate, range.sampleFormat⟩
  sameFormat : ∀ supported, config supported = ⟨supported.sampleRate, supported.channels⟩

def configMatches (range : SupportedStreamConfigRange) (preferredRate : UInt32)
    (preferredChannels : UInt16) : Bool :=
  let rateInRange := range.minSampleRate ≤ preferredRate ∧ preferredRate ≤ range.maxSampleRate
  range.sampleFormat == .f32 && range.channels == preferredChannels && decide rateInRange

def findMatchingConfig (cpal : Cpal) (ranges : List SupportedStreamConfigRange)
    (preferredRate : UInt32) (preferredChannels : UInt16) : Outcome (Option StreamConfig) :=
  match ranges.find? (configMatches · preferredRate preferredChannels) with
  | none => value none
  | some range => do
    let supported ← cpal.withSampleRate range preferredRate
    pure (some (cpal.config supported))

end Configs

section Negotiation
variable {δ : Type}

inductive Direction where
  | input
  | output
  deriving DecidableEq

def Direction.label : Direction → String
  | .input => "input"
  | .output => "output"

structure Host (δ : Type) extends Cpal where
  devices : Direction → Option (List δ)
  defaultDevice : Direction → Option δ
  name : δ → Option String
  supportedConfigs : Direction → δ → Option (List SupportedStreamConfigRange)
  defaultConfig : Direction → δ → Option SupportedStreamConfig
  toLowercase : String → String

def Host.names (host : Host δ) : Names δ where
  displayName device := (host.name device).getD "<unknown>"
  toLowercase := host.toLowercase

structure Cli extends Playback.Cli where
  server : String := "127.0.0.1:5004"
  receivePort : UInt16 := 5006
  capture : Option String := none
  playback : Option String := none
  sampleRate : UInt32 := 48000
  channels : UInt16 := 2
  packetMs := 2.5
  playbackBufferMs := 250
  prebufferMs := 30

def context {α : Type} (message : String) : Option α → Outcome α
  | some a => value a
  | none => error message

def chooseConfig (host : Host δ) (device : δ) (direction : Direction) (preferredRate : UInt32)
    (preferredChannels : UInt16) : Outcome StreamConfig := do
  let kind := direction.label
  let ranges ← context s!"failed to read {kind} configurations" (host.supportedConfigs direction device)
  match ← findMatchingConfig host.toCpal ranges preferredRate preferredChannels with
  | some config => pure config
  | none =>
    let default ← context s!"no default {kind} configuration" (host.defaultConfig direction device)
    bailIf (default.sampleFormat ≠ .f32)
      s!"prototype currently requires an f32 {kind} device configuration"
    pure (host.config default)

structure DeviceSetup (δ : Type) where
  inputDevice : δ
  outputDevice : δ
  inputConfig : StreamConfig
  outputConfig : StreamConfig

def negotiateDevices (host : Host δ) (cli : Cli) : Outcome (DeviceSetup δ) := do
  let inputs ← context "failed to enumerate input devices" (host.devices .input)
  let inputDevice ← selectDevice host.names inputs cli.capture (host.defaultDevice .input) "input"
  let outputs ← context "failed to enumerate output devices" (host.devices .output)
  let outputDevice ← selectDevice host.names outputs cli.playback (host.defaultDevice .output) "output"
  let inputConfig ← chooseConfig host inputDevice .input cli.sampleRate cli.channels
  let outputConfig ←
    chooseConfig host outputDevice .output inputConfig.sampleRate inputConfig.channels
  let formats := s!"input={inputConfig.sampleRate}Hz/{inputConfig.channels}ch, " ++
    s!"output={outputConfig.sampleRate}Hz/{outputConfig.channels}ch"
  bailIf (inputConfig.sampleRate ≠ outputConfig.sampleRate ∨
      inputConfig.channels ≠ outputConfig.channels)
    ("capture and playback formats must match in this prototype: " ++ formats)
  pure { inputDevice, outputDevice, inputConfig, outputConfig }

end Negotiation

section Chosen
variable {δ : Type} {names : Names δ} {devices : List δ} {needle : Option String} {default : Option δ}
  {kind : String} {device : δ}

def Chosen (names : Names δ) (devices : List δ) (needle : Option String) (default : Option δ)
    (device : δ) : Prop :=
  match needle with
  | some needle => devices.filter (names.matches needle) = [device]
  | none => default = some device

theorem selectedChosen :
    selectDevice names devices needle default kind = value device ↔
      Chosen names devices needle default device := by
  unfold selectDevice Chosen
  cases needle with
  | none =>
    cases default with
    | none => simp
    | some other => simp
  | some needle =>
    simp only
    split
    · rename_i nobody
      simp [nobody]
    · rename_i other only
      simp [only]
    · rename_i nobody others
      simp only [reduceCtorEq, false_iff]
      exact fun only => others device only

theorem chosenUnordered {listed : List δ} (same : devices.Perm listed)
    (chosen : Chosen names devices needle default device) :
    Chosen names listed needle default device := by
  unfold Chosen at chosen ⊢
  cases needle with
  | none => exact chosen
  | some needle =>
    have filtered := (same.filter (names.matches needle)).symm
    simp only [chosen] at filtered ⊢
    exact List.perm_singleton.mp filtered

end Chosen

section Configured
variable {ranges : List SupportedStreamConfigRange} {rate : UInt32} {channels : UInt16}

theorem matchesFields {range : SupportedStreamConfigRange} :
    configMatches range rate channels = true ↔ range.sampleFormat = .f32 ∧ range.channels = channels ∧
      range.minSampleRate ≤ rate ∧ rate ≤ range.maxSampleRate := by
  simp [configMatches, and_assoc]

/- A range that matches never makes cpal panic, and all of them give the same configuration:
so it does not matter which of them a host lists first. -/
theorem findsPreferred (cpal : Cpal) (ranges : List SupportedStreamConfigRange) (rate : UInt32)
    (channels : UInt16) : findMatchingConfig cpal ranges rate channels = value
      (if ranges.any (configMatches · rate channels) then some ⟨rate, channels⟩ else none) := by
  unfold findMatchingConfig
  cases found : ranges.find? (configMatches · rate channels) with
  | none =>
    have nothing : ranges.any (configMatches · rate channels) = false := by
      rw [List.any_eq_false]
      exact fun range inside => List.find?_eq_none.mp found range inside
    simp [nothing]
  | some range =>
    have fits := List.find?_some found
    have some_fits : ranges.any (configMatches · rate channels) = true :=
      List.any_eq_true.mpr ⟨range, List.mem_of_find?_eq_some found, fits⟩
    obtain ⟨_, rfl, low, high⟩ := matchesFields.mp fits
    simp only [cpal.inRange _ _ low high, valueBind, pureValue, cpal.sameFormat, some_fits, if_true]

variable {δ : Type} {host : Host δ} {device : δ} {direction : Direction} {config : StreamConfig}

def Configured (host : Host δ) (device : δ) (direction : Direction) (rate : UInt32) (channels : UInt16)
    (config : StreamConfig) : Prop :=
  ∃ ranges, host.supportedConfigs direction device = some ranges ∧
    if ranges.any (configMatches · rate channels) then config = ⟨rate, channels⟩
    else ∃ default, host.defaultConfig direction device = some default ∧
      default.sampleFormat = .f32 ∧ config = host.config default

theorem contextValue {α : Type} {message : String} {answer : Option α} {a : α} :
    context message answer = value a ↔ answer = some a := by
  cases answer <;> simp [context]

theorem chosenConfigured : chooseConfig host device direction rate channels = value config ↔
    Configured host device direction rate channels config := by
  unfold chooseConfig Configured
  simp only [bindValue, contextValue, findsPreferred]
  refine exists_congr fun ranges => and_congr_right fun _ => ?_
  split
  · simp [eq_comm]
  · simp only [Outcome.value.injEq, exists_eq_left', bindValue, contextValue, bailIfValue, pureValue]
    refine exists_congr fun default => and_congr_right fun _ => ?_
    simp [eq_comm]

end Configured

section Negotiated
variable {δ : Type} {host listed : Host δ} {cli : Cli} {setup : DeviceSetup δ}

def Picked (host : Host δ) (direction : Direction) (needle : Option String) (device : δ) : Prop :=
  ∃ devices, host.devices direction = some devices ∧
    Chosen host.names devices needle (host.defaultDevice direction) device

structure Negotiated (host : Host δ) (cli : Cli) (setup : DeviceSetup δ) : Prop where
  input : Picked host .input cli.capture setup.inputDevice
  output : Picked host .output cli.playback setup.outputDevice
  inputConfig : Configured host setup.inputDevice .input cli.sampleRate cli.channels setup.inputConfig
  outputConfig : Configured host setup.outputDevice .output setup.inputConfig.sampleRate
    setup.inputConfig.channels setup.outputConfig
  formats : setup.inputConfig.sampleRate = setup.outputConfig.sampleRate ∧
    setup.inputConfig.channels = setup.outputConfig.channels

theorem negotiatesExactly : negotiateDevices host cli = value setup ↔ Negotiated host cli setup := by
  unfold negotiateDevices
  simp only [bindValue, contextValue, selectedChosen, chosenConfigured, bailIfValue, pureValue,
    not_or, not_not, Outcome.value.injEq]
  constructor
  · rintro ⟨inputs, listsIn, inDevice, picksIn, outputs, listsOut, outDevice, picksOut, inConfig,
      configuresIn, outConfig, configuresOut, _, same, rfl⟩
    exact ⟨⟨inputs, listsIn, picksIn⟩, ⟨outputs, listsOut, picksOut⟩, configuresIn, configuresOut, same⟩
  · intro negotiated
    obtain ⟨inputs, listsIn, picksIn⟩ := negotiated.input
    obtain ⟨outputs, listsOut, picksOut⟩ := negotiated.output
    exact ⟨inputs, listsIn, _, picksIn, outputs, listsOut, _, picksOut, _, negotiated.inputConfig, _,
      negotiated.outputConfig, (), negotiated.formats, rfl⟩

theorem contextReturns {α : Type} (message : String) (answer : Option α) :
    context message answer ≠ aborted := by
  cases answer <;> simp [context]

theorem selectReturns (names : Names δ) (devices : List δ) (needle : Option String)
    (default : Option δ) (kind : String) : selectDevice names devices needle default kind ≠ aborted := by
  unfold selectDevice
  split
  · split <;> simp
  · split <;> simp

theorem chooseReturns (device : δ) (direction : Direction) (rate : UInt32) (channels : UInt16) :
    chooseConfig host device direction rate channels ≠ aborted := by
  unfold chooseConfig
  refine bindReturns (contextReturns _ _) fun ranges _ => ?_
  rw [findsPreferred, valueBind]
  split
  · simp
  · exact bindReturns (contextReturns _ _) fun default _ =>
      bindReturns (bailIfReturns _ _) fun _ _ => by simp

theorem negotiateReturns : negotiateDevices host cli ≠ aborted := by
  unfold negotiateDevices
  refine bindReturns (contextReturns _ _) fun inputs _ => ?_
  refine bindReturns (selectReturns _ _ _ _ _) fun inputDevice _ => ?_
  refine bindReturns (contextReturns _ _) fun outputs _ => ?_
  refine bindReturns (selectReturns _ _ _ _ _) fun outputDevice _ => ?_
  refine bindReturns (chooseReturns _ _ _ _) fun inputConfig _ => ?_
  refine bindReturns (chooseReturns _ _ _ _) fun outputConfig _ => ?_
  exact bindReturns (bailIfReturns _ _) fun _ _ => by simp

structure Relisted (host listed : Host δ) : Prop where
  devices : ∀ direction, Option.Rel List.Perm (host.devices direction) (listed.devices direction)
  defaults : listed.defaultDevice = host.defaultDevice
  name : listed.name = host.name
  ranges : ∀ direction device, Option.Rel List.Perm (host.supportedConfigs direction device)
    (listed.supportedConfigs direction device)
  configs : listed.defaultConfig = host.defaultConfig
  lowercase : listed.toLowercase = host.toLowercase

theorem relistedBack (relisted : Relisted host listed) : Relisted listed host := by
  have back {α : Type} {one other : Option (List α)} (same : Option.Rel List.Perm one other) :
      Option.Rel List.Perm other one := by
    cases same with
    | none => exact .none
    | some perm => exact .some perm.symm
  exact ⟨fun direction => back (relisted.devices direction), relisted.defaults.symm, relisted.name.symm,
    fun direction device => back (relisted.ranges direction device), relisted.configs.symm,
    relisted.lowercase.symm⟩

theorem relistedFound {α : Type} {one other : Option (List α)} {items : List α}
    (same : Option.Rel List.Perm one other) (found : one = some items) :
    ∃ others, other = some others ∧ items.Perm others := by
  subst found
  cases same with
  | some perm => exact ⟨_, rfl, perm⟩

theorem pickedUnordered (relisted : Relisted host listed) {direction : Direction}
    {needle : Option String} {device : δ} (picked : Picked host direction needle device) :
    Picked listed direction needle device := by
  obtain ⟨devices, lists, chosen⟩ := picked
  obtain ⟨others, again, perm⟩ := relistedFound (relisted.devices direction) lists
  have names : listed.names = host.names := by
    simp only [Host.names, relisted.name, relisted.lowercase]
  refine ⟨others, again, ?_⟩
  rw [names, relisted.defaults]
  exact chosenUnordered perm chosen

theorem configuredUnordered (relisted : Relisted host listed) {device : δ} {direction : Direction}
    {rate : UInt32} {channels : UInt16} {config : StreamConfig}
    (configured : Configured host device direction rate channels config) :
    Configured listed device direction rate channels config := by
  obtain ⟨ranges, offers, configures⟩ := configured
  obtain ⟨others, again, perm⟩ := relistedFound (relisted.ranges direction device) offers
  refine ⟨others, again, ?_⟩
  simp only [host.sameFormat] at configures
  simp only [listed.sameFormat]
  rwa [← perm.any_eq, relisted.configs]

theorem negotiatedUnordered (relisted : Relisted host listed) (negotiated : Negotiated host cli setup) :
    Negotiated listed cli setup where
  input := pickedUnordered relisted negotiated.input
  output := pickedUnordered relisted negotiated.output
  inputConfig := configuredUnordered relisted negotiated.inputConfig
  outputConfig := configuredUnordered relisted negotiated.outputConfig
  formats := negotiated.formats

theorem devicesNegotiated (host : Host δ) (cli : Cli) :
    (∀ setup, negotiateDevices host cli = value setup ↔ Negotiated host cli setup) ∧
    (∀ listed, Relisted host listed → ∀ setup,
      negotiateDevices listed cli = value setup ↔ negotiateDevices host cli = value setup) ∧
    negotiateDevices host cli ≠ aborted := by
  refine ⟨fun setup => negotiatesExactly, fun listed relisted setup => ?_, negotiateReturns⟩
  rw [negotiatesExactly, negotiatesExactly]
  exact ⟨negotiatedUnordered (relistedBack relisted), negotiatedUnordered relisted⟩

end Negotiated

end KaraokeAnything.Devices
