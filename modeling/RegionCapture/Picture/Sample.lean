import RegionCapture.Frame
/-!
# Samples

What the numbers of a pixel stand for in files that store pictures, and how they become a frame.
-/

namespace RegionCapture.Picture

/-- What the samples of a pixel stand for, in order. -/
inductive Channels where
  | gray
  | grayAlpha
  | color
  | colorAlpha
  deriving DecidableEq, Repr

namespace Channels

/-- Samples in a pixel. -/
def count : Channels → Nat
  | gray => 1
  | grayAlpha => 2
  | color => 3
  | colorAlpha => 4

/-- The channels of so many samples. -/
def ofCount? : Nat → Option Channels
  | 1 => some gray
  | 2 => some grayAlpha
  | 3 => some color
  | 4 => some colorAlpha
  | _ => none

/-- A pixel from its samples. -/
def pixel (c : Channels) (sample : Nat → UInt8) : Rgba :=
  match c with
  | gray => ⟨sample 0, sample 0, sample 0, 255⟩
  | grayAlpha => ⟨sample 0, sample 0, sample 0, sample 1⟩
  | color => ⟨sample 0, sample 1, sample 2, 255⟩
  | colorAlpha => ⟨sample 0, sample 1, sample 2, sample 3⟩

end Channels

/-- Sixteen bits brought to the nearest eight. -/
def narrow (sample : Nat) : UInt8 := ((sample + 128) / 257).toUInt8

/-- The lowest bits of a number brought to the nearest eight. -/
def widen (bits n : Nat) : UInt8 :=
  let full := 1 <<< bits - 1
  ((n % (full + 1) * 255 + full / 2) / full).toUInt8

/-- A part of full intensity in eight bits, to the nearest. What is brighter is cut. -/
def ofUnit (part : Float32) : UInt8 := ((if part < 1 then max part 0 else 1) * 255).round.toUInt8

/-- The most samples that a picture may have. -/
def maxSamples : Nat := 0x20000000

/-- The picture with the given samples, pixel by pixel and row by row. -/
def ofSamples (width height : Nat) (c : Channels) (samples : Array UInt8) : Frame :=
  Frame.ofFn width height fun x y =>
    c.pixel fun k => samples.getD (c.count * (y * width + x) + k) 0

end RegionCapture.Picture
