import TemplateCascade.Inheritance.Kind
import TemplateCascade.Text.Quoted

namespace TemplateCascade

/-!
# Fingerprints

A definition's text is recognised by sixty-four bits: the 64-bit xxHash of its UTF-8 bytes with seed
zero, combined with a constant of its kind so that a template and a phrase with the same text differ.
-/

namespace Fingerprint

def prime1 : UInt64 := 0x9E3779B185EBCA87
def prime2 : UInt64 := 0xC2B2AE3D27D4EB4F
def prime3 : UInt64 := 0x165667B19E3779F9
def prime4 : UInt64 := 0x85EBCA77C2B2AE63
def prime5 : UInt64 := 0x27D4EB2F165667C5

/-- Rotate the bits of a word to the left. -/
def rotate (word : UInt64) (places : UInt64) : UInt64 :=
  (word <<< places) ||| (word >>> (64 - places))

/-- The word that bytes stand for, lowest byte first. -/
def word : List UInt8 → UInt64
  | [] => 0
  | byte :: rest => byte.toUInt64 ||| (word rest <<< 8)

/-- Mix one word into a lane. -/
def mix (lane input : UInt64) : UInt64 :=
  rotate (lane + input * prime2) 31 * prime1

/-- Four lanes, each taking every fourth word of the input. -/
structure Lanes where
  first : UInt64
  second : UInt64
  third : UInt64
  fourth : UInt64
deriving DecidableEq, Repr

namespace Lanes

def start : Lanes := ⟨prime1 + prime2, prime2, 0, 0 - prime1⟩

/-- Take thirty-two bytes into the lanes. -/
def absorb (lanes : Lanes) (block : List UInt8) : Lanes where
  first := mix lanes.first (word (block.take 8))
  second := mix lanes.second (word ((block.drop 8).take 8))
  third := mix lanes.third (word ((block.drop 16).take 8))
  fourth := mix lanes.fourth (word ((block.drop 24).take 8))

/-- Take every whole block of thirty-two bytes, leaving the bytes that do not fill one. -/
def absorbBlocks (lanes : Lanes) (bytes : List UInt8) : Lanes × List UInt8 :=
  if 32 ≤ bytes.length then absorbBlocks (lanes.absorb (bytes.take 32)) (bytes.drop 32)
  else (lanes, bytes)
termination_by bytes.length
decreasing_by simp only [List.length_drop]; omega

/-- Fold one lane into the hash. -/
def fold (hash lane : UInt64) : UInt64 :=
  (hash ^^^ mix 0 lane) * prime1 + prime4

/-- The hash of the four lanes. -/
def join (lanes : Lanes) : UInt64 :=
  let mixed := rotate lanes.first 1 + rotate lanes.second 7 + rotate lanes.third 12 +
    rotate lanes.fourth 18
  fold (fold (fold (fold mixed lanes.first) lanes.second) lanes.third) lanes.fourth

end Lanes

/-- Take the bytes that are left one by one. -/
def absorbBytes (hash : UInt64) (bytes : List UInt8) : UInt64 :=
  bytes.foldl (fun hash byte => rotate (hash ^^^ (byte.toUInt64 * prime5)) 11 * prime1) hash

/-- Take four bytes as one word when there are four, then the rest one by one. -/
def absorbHalf (hash : UInt64) (bytes : List UInt8) : UInt64 :=
  if 4 ≤ bytes.length then
    absorbBytes (rotate (hash ^^^ (word (bytes.take 4) * prime1)) 23 * prime2 + prime3)
      (bytes.drop 4)
  else absorbBytes hash bytes

/-- Take whole words while there are eight bytes, then the rest. -/
def absorbTail (hash : UInt64) (bytes : List UInt8) : UInt64 :=
  if 8 ≤ bytes.length then
    absorbTail (rotate (hash ^^^ mix 0 (word (bytes.take 8))) 27 * prime1 + prime4) (bytes.drop 8)
  else absorbHalf hash bytes
termination_by bytes.length
decreasing_by simp only [List.length_drop]; omega

/-- Spread every bit of the hash over the whole word. -/
def scatter (hash : UInt64) : UInt64 :=
  let hash := (hash ^^^ (hash >>> 33)) * prime2
  let hash := (hash ^^^ (hash >>> 29)) * prime3
  hash ^^^ (hash >>> 32)

/-- The 64-bit xxHash of a list of bytes, with seed zero. -/
def ofBytes (bytes : List UInt8) : UInt64 :=
  let length := UInt64.ofNat bytes.length
  if 32 ≤ bytes.length then
    let (lanes, rest) := Lanes.start.absorbBlocks bytes
    scatter (absorbTail (lanes.join + length) rest)
  else scatter (absorbTail (prime5 + length) bytes)

/-- The constant that sets one kind of definition apart. -/
def mark : DefinitionKind → UInt64
  | .template => 0x2fac10b63a6cc57c
  | .phrase => 0x5ea77ffbcdf5f302

/-- The fingerprint of a definition's text. -/
def ofText (kind : DefinitionKind) (text : String) : UInt64 :=
  mark kind ^^^ ofBytes (text.toList.flatMap String.utf8EncodeChar)

/-- A fingerprint as listings show it, with all sixteen digits. -/
def text (fingerprint : UInt64) : String :=
  let digits := Text.hexadecimal fingerprint.toNat
  "SourceHash(0x" ++ String.ofList (List.replicate (16 - digits.length) '0' ++ digits) ++ ")"

end Fingerprint

end TemplateCascade
