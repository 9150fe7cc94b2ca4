import KaraokeAnything.Library.ByteOrder

/-! app/audio_trombone/models.py. The receive time is left out: it only feeds the
age shown by the status page. -/
namespace KaraokeAnything.Models
open ByteOrder

structure MediaPacket where
  payload : Bytes
  senderHost : String
  senderPort : Nat
  deriving DecidableEq, Repr

structure ProcessedPacket where
  payload : Bytes
  destinationHost : Option String := none
  destinationPort : Option Nat := none
  deriving DecidableEq, Repr

structure Metrics where
  packetsReceived : Nat := 0
  packetsEnqueued : Nat := 0
  packetsDropped : Nat := 0
  packetsProcessed : Nat := 0
  packetsEmitted : Nat := 0
  packetsForwarded : Nat := 0
  bytesReceived : Nat := 0
  bytesForwarded : Nat := 0
  processorErrors : Nat := 0
  forwardingErrors : Nat := 0
  queueHighWatermark : Nat := 0
  lastSenderHost : Option String := none
  lastSenderPort : Option Nat := none
  deriving DecidableEq, Repr

end KaraokeAnything.Models
