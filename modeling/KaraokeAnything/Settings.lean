/-! app/audio_trombone/config.py: the settings the service, its processors and its
ingress read. The addresses of the listening sockets and the log level are left out. -/
namespace KaraokeAnything.Config

structure Settings where
  outputPort : Nat := 5006
  returnHost : Option String := none
  processor : String := "passthrough"
  inputQueueSize : Int := 512
  maxPacketSize : Int := 65535
  demucsModel : String := "htdemucs"
  demucsDevice : String := "auto"
  demucsSegmentSeconds : Float := 6.0
  demucsOverlap : Float := 0.25
  demucsShifts : Int := 0
  demucsVocalReduction : Float := 1.0
  convtasnetModelPath : String := "/models/convtasnet-lyrics-causal"
  convtasnetDevice : String := "auto"
  convtasnetSegmentSeconds : Float := 1.0
  convtasnetVocalReduction : Float := 1.0
  convtasnetVocalSourceIndex : Int := 0
  convtasnetAccompanimentSourceIndex : Int := 1
  mdx23cConfigPath : String := "/models/mdx23c/model_2_stem_full_band_8k.yaml"
  mdx23cCheckpointPath : String := "/models/mdx23c/MDX23C-8KFFT-InstVoc_HQ.ckpt"
  mdx23cDevice : String := "auto"
  mdx23cSegmentSeconds : Float := 1.0
  mdx23cOverlap : Float := 0.25
  mdx23cBatchSize : Int := 1
  mdx23cVocalReduction : Float := 1.0
  mdx23cPrecision : String := "float32"
  centreReduction : Float := 0.7
  deriving DecidableEq, Repr

end KaraokeAnything.Config
