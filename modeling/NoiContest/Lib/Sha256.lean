import Std

/- SHA-256 over byte strings, with the message schedule kept as a sliding window of
   sixteen words. -/
namespace Sha256

def rotr (x : UInt32) (n : UInt32) : UInt32 := (x >>> n) ||| (x <<< (32 - n))

def roundConstants : List UInt32 := [
  0x428a2f98, 0x71374491, 0xb5c0fbcf, 0xe9b5dba5, 0x3956c25b, 0x59f111f1, 0x923f82a4, 0xab1c5ed5,
  0xd807aa98, 0x12835b01, 0x243185be, 0x550c7dc3, 0x72be5d74, 0x80deb1fe, 0x9bdc06a7, 0xc19bf174,
  0xe49b69c1, 0xefbe4786, 0x0fc19dc6, 0x240ca1cc, 0x2de92c6f, 0x4a7484aa, 0x5cb0a9dc, 0x76f988da,
  0x983e5152, 0xa831c66d, 0xb00327c8, 0xbf597fc7, 0xc6e00bf3, 0xd5a79147, 0x06ca6351, 0x14292967,
  0x27b70a85, 0x2e1b2138, 0x4d2c6dfc, 0x53380d13, 0x650a7354, 0x766a0abb, 0x81c2c92e, 0x92722c85,
  0xa2bfe8a1, 0xa81a664b, 0xc24b8b70, 0xc76c51a3, 0xd192e819, 0xd6990624, 0xf40e3585, 0x106aa070,
  0x19a4c116, 0x1e376c08, 0x2748774c, 0x34b0bcb5, 0x391c0cb3, 0x4ed8aa4a, 0x5b9cca4f, 0x682e6ff3,
  0x748f82ee, 0x78a5636f, 0x84c87814, 0x8cc70208, 0x90befffa, 0xa4506ceb, 0xbef9a3f7, 0xc67178f2]

structure Words where
  (a b c d e f g h : UInt32)

def initial : Words :=
  ⟨0x6a09e667, 0xbb67ae85, 0x3c6ef372, 0xa54ff53a, 0x510e527f, 0x9b05688c, 0x1f83d9ab, 0x5be0cd19⟩

def Words.add (s t : Words) : Words :=
  ⟨s.a + t.a, s.b + t.b, s.c + t.c, s.d + t.d, s.e + t.e, s.f + t.f, s.g + t.g, s.h + t.h⟩

def bigSigma0 (x : UInt32) : UInt32 := rotr x 2 ^^^ rotr x 13 ^^^ rotr x 22
def bigSigma1 (x : UInt32) : UInt32 := rotr x 6 ^^^ rotr x 11 ^^^ rotr x 25
def smallSigma0 (x : UInt32) : UInt32 := rotr x 7 ^^^ rotr x 18 ^^^ (x >>> 3)
def smallSigma1 (x : UInt32) : UInt32 := rotr x 17 ^^^ rotr x 19 ^^^ (x >>> 10)

def Words.round (s : Words) (k w : UInt32) : Words :=
  let choose := (s.e &&& s.f) ^^^ (~~~ s.e &&& s.g)
  let majority := (s.a &&& s.b) ^^^ (s.a &&& s.c) ^^^ (s.b &&& s.c)
  let t1 := s.h + bigSigma1 s.e + choose + k + w
  let t2 := bigSigma0 s.a + majority
  ⟨t1 + t2, s.a, s.b, s.c, s.d + t1, s.e, s.f, s.g⟩

def nextWord (window : List UInt32) : UInt32 :=
  window.getD 0 0 + smallSigma0 (window.getD 1 0) + window.getD 9 0 + smallSigma1 (window.getD 14 0)

def rounds : List UInt32 → List UInt32 → Words → Words
  | [], _, s => s
  | k :: ks, window, s =>
      rounds ks (window.drop 1 ++ [nextWord window]) (s.round k (window.getD 0 0))

def bigEndianWords : List UInt8 → List UInt32
  | a :: b :: c :: d :: rest =>
      ((a.toUInt32 <<< 24) ||| (b.toUInt32 <<< 16) ||| (c.toUInt32 <<< 8) ||| d.toUInt32) ::
        bigEndianWords rest
  | _ => []

def compress (s : Words) (block : List UInt8) : Words :=
  s.add (rounds roundConstants (bigEndianWords block) s)

def compressAll : Nat → List UInt8 → Words → Words
  | 0, _, s => s
  | n + 1, bytes, s => compressAll n (bytes.drop 64) (compress s (bytes.take 64))

/- A one bit, zeros up to 56 modulo 64, and the bit length in eight bytes. -/
def pad (message : List UInt8) : List UInt8 :=
  let bits := 8 * message.length
  let bitLength : List UInt8 :=
    [56, 48, 40, 32, 24, 16, 8, 0].map (fun shift => UInt8.ofNat (bits >>> shift))
  message ++ [0x80] ++ List.replicate ((119 - message.length % 64) % 64) 0 ++ bitLength

def hexDigit (n : Nat) : Char := if n < 10 then Char.ofNat (48 + n) else Char.ofNat (87 + n)

def hexWord (w : UInt32) : List Char :=
  [28, 24, 20, 16, 12, 8, 4, 0].map (fun shift => hexDigit ((w.toNat >>> shift) % 16))

def hexdigest (message : List UInt8) : String :=
  let padded := pad message
  let s := compressAll (padded.length / 64) padded initial
  String.ofList ([s.a, s.b, s.c, s.d, s.e, s.f, s.g, s.h].flatMap hexWord)

def wordBytes (w : UInt32) : List UInt8 :=
  [24, 16, 8, 0].map fun shift => UInt8.ofNat (w.toNat >>> shift)

def digest (message : List UInt8) : List UInt8 :=
  let padded := pad message
  let s := compressAll (padded.length / 64) padded initial
  [s.a, s.b, s.c, s.d, s.e, s.f, s.g, s.h].flatMap wordBytes

theorem digest_length (message : List UInt8) : (digest message).length = 32 := by
  simp [digest, wordBytes]

/- The text is eight words of eight digits. -/
theorem hexdigest_length (message : List UInt8) : (hexdigest message).length = 64 := by
  simp [hexdigest, hexWord]

theorem hexdigest_digit {message : List UInt8} {c : Char} (mem : c ∈ (hexdigest message).toList) :
    ∃ n < 16, c = hexDigit n := by
  simp only [hexdigest, String.toList_ofList, List.mem_flatMap, hexWord, List.mem_map] at mem
  obtain ⟨w, _, shift, _, rfl⟩ := mem
  exact ⟨_, Nat.mod_lt _ (by decide), rfl⟩

/-- The digest of a text is that of its UTF-8 bytes. -/
def ofText (text : String) : String := hexdigest text.toUTF8.toList

example : ofText "abc" =
    "ba7816bf8f01cfea414140de5dae2223b00361a396177a9cb410ff61f20015ad" := by decide +kernel

/- HMAC with this hash function, whose blocks have 64 bytes. -/
def hmac (key message : List UInt8) : List UInt8 :=
  let key := if 64 < key.length then digest key else key
  let block := key ++ List.replicate (64 - key.length) 0
  digest (block.map (· ^^^ 0x5c) ++ digest (block.map (· ^^^ 0x36) ++ message))

theorem hmac_length (key message : List UInt8) : (hmac key message).length = 32 :=
  digest_length _

example : (hmac "Jefe".toUTF8.toList "what do ya want for nothing?".toUTF8.toList).take 8 =
    [0x5b, 0xdc, 0xc1, 0x46, 0xbf, 0x60, 0x75, 0x4e] := by decide +kernel

end Sha256
