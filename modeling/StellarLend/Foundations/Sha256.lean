import Mathlib.Data.List.Basic

/-!
# Foundations/Sha256 — the hash function, computed

SHA-256 on byte strings and, through UTF-8, on text, with its digest printed as hexadecimal digits.
Words are natural numbers below `2 ^ 32`.  What other modules say about a hash function they say
about a parameter; the function here is what they evaluate that parameter at.
-/

namespace Foundations.Sha256

/-! ## Words -/

/-- The last 32 bits. -/
def word (n : ℕ) : ℕ := n % 0x100000000

def rotr (n x : ℕ) : ℕ := (x >>> n) ||| word (x <<< (32 - n))

def bigSigma0 (x : ℕ) : ℕ := rotr 2 x ^^^ rotr 13 x ^^^ rotr 22 x

def bigSigma1 (x : ℕ) : ℕ := rotr 6 x ^^^ rotr 11 x ^^^ rotr 25 x

def smallSigma0 (x : ℕ) : ℕ := rotr 7 x ^^^ rotr 18 x ^^^ (x >>> 3)

def smallSigma1 (x : ℕ) : ℕ := rotr 17 x ^^^ rotr 19 x ^^^ (x >>> 10)

def choose (x y z : ℕ) : ℕ := (x &&& y) ^^^ ((0xffffffff - x) &&& z)

def majority (x y z : ℕ) : ℕ := (x &&& y) ^^^ (x &&& z) ^^^ (y &&& z)

/-! ## Rounds -/

/-- The eight working words. -/
structure Registers where
  (a b c d e f g h : ℕ)

def Registers.toList (r : Registers) : List ℕ := [r.a, r.b, r.c, r.d, r.e, r.f, r.g, r.h]

def Registers.add (r s : Registers) : Registers :=
  ⟨word (r.a + s.a), word (r.b + s.b), word (r.c + s.c), word (r.d + s.d),
    word (r.e + s.e), word (r.f + s.f), word (r.g + s.g), word (r.h + s.h)⟩

def initial : Registers :=
  ⟨0x6a09e667, 0xbb67ae85, 0x3c6ef372, 0xa54ff53a, 0x510e527f, 0x9b05688c, 0x1f83d9ab, 0x5be0cd19⟩

def roundConstants : List ℕ :=
  [0x428a2f98, 0x71374491, 0xb5c0fbcf, 0xe9b5dba5, 0x3956c25b, 0x59f111f1, 0x923f82a4, 0xab1c5ed5,
   0xd807aa98, 0x12835b01, 0x243185be, 0x550c7dc3, 0x72be5d74, 0x80deb1fe, 0x9bdc06a7, 0xc19bf174,
   0xe49b69c1, 0xefbe4786, 0x0fc19dc6, 0x240ca1cc, 0x2de92c6f, 0x4a7484aa, 0x5cb0a9dc, 0x76f988da,
   0x983e5152, 0xa831c66d, 0xb00327c8, 0xbf597fc7, 0xc6e00bf3, 0xd5a79147, 0x06ca6351, 0x14292967,
   0x27b70a85, 0x2e1b2138, 0x4d2c6dfc, 0x53380d13, 0x650a7354, 0x766a0abb, 0x81c2c92e, 0x92722c85,
   0xa2bfe8a1, 0xa81a664b, 0xc24b8b70, 0xc76c51a3, 0xd192e819, 0xd6990624, 0xf40e3585, 0x106aa070,
   0x19a4c116, 0x1e376c08, 0x2748774c, 0x34b0bcb5, 0x391c0cb3, 0x4ed8aa4a, 0x5b9cca4f, 0x682e6ff3,
   0x748f82ee, 0x78a5636f, 0x84c87814, 0x8cc70208, 0x90befffa, 0xa4506ceb, 0xbef9a3f7, 0xc67178f2]

/-- One round, on a round constant and a word of the schedule. -/
def round (r : Registers) (kw : ℕ × ℕ) : Registers :=
  let t₁ := word (r.h + bigSigma1 r.e + choose r.e r.f r.g + kw.1 + kw.2)
  let t₂ := word (bigSigma0 r.a + majority r.a r.b r.c)
  ⟨word (t₁ + t₂), r.a, r.b, r.c, word (r.d + t₁), r.e, r.f, r.g⟩

/-- So many more words of the schedule; the newest stands first. -/
def extend : ℕ → List ℕ → List ℕ
  | 0, ws => ws
  | n + 1, ws => extend n (word (smallSigma1 (ws.getD 1 0) + ws.getD 6 0 +
      smallSigma0 (ws.getD 14 0) + ws.getD 15 0) :: ws)

/-- The schedule of a block of sixteen words. -/
def schedule (block : List ℕ) : List ℕ := (extend 48 block.reverse).reverse

def compress (r : Registers) (block : List ℕ) : Registers :=
  r.add ((roundConstants.zip (schedule block)).foldl round r)

/-! ## Messages -/

/-- A number as so many bytes, the most significant first. -/
def bytesOf : ℕ → ℕ → List ℕ
  | 0, _ => []
  | k + 1, n => (n >>> (8 * k)) % 256 :: bytesOf k n

/-- The message, a one bit, zeros up to a full block less eight bytes, and the length in bits. -/
def pad (message : List ℕ) : List ℕ :=
  message ++ 0x80 :: (List.replicate ((119 - message.length % 64) % 64) 0 ++
    bytesOf 8 (8 * message.length))

/-- So many words of four bytes each. -/
def wordsOf : ℕ → List ℕ → List ℕ
  | 0, _ => []
  | k + 1, bs =>
    ((bs.getD 0 0 <<< 24) + (bs.getD 1 0 <<< 16) + (bs.getD 2 0 <<< 8) + bs.getD 3 0) ::
      wordsOf k (bs.drop 4)

/-- So many blocks of sixteen words each. -/
def blocksOf : ℕ → List ℕ → List (List ℕ)
  | 0, _ => []
  | k + 1, ws => ws.take 16 :: blocksOf k (ws.drop 16)

/-- The digest of a message, as eight words. -/
def digest (message : List ℕ) : List ℕ :=
  let padded := pad message
  ((blocksOf (padded.length / 64) (wordsOf (padded.length / 4) padded)).foldl compress
    initial).toList

/-! ## Text -/

/-- A number as so many hexadecimal digits. -/
def hexDigits : ℕ → ℕ → List Char
  | 0, _ => []
  | k + 1, n => Nat.digitChar ((n >>> (4 * k)) % 16) :: hexDigits k n

@[simp] theorem length_hexDigits (k n : ℕ) : (hexDigits k n).length = k := by
  induction k with
  | zero => rfl
  | succ k ih => rw [hexDigits, List.length_cons, ih]

end Sha256

/-- The digest of a text's UTF-8 bytes, in hexadecimal digits. -/
def sha256 (data : String) : String :=
  String.ofList ((Sha256.digest (data.toUTF8.toList.map UInt8.toNat)).flatMap (Sha256.hexDigits 8))

/-- **A digest has 64 digits.** -/
theorem length_sha256 (data : String) : (sha256 data).length = 64 := by
  rw [sha256, String.length_ofList, List.length_flatMap]
  simp only [Sha256.length_hexDigits]
  rfl

/-- What a digest in hexadecimal digits looks like. -/
def IsDigest (text : String) : Prop :=
  text.length = 64 ∧ ∀ c ∈ text.toList, c ∈ "0123456789abcdef".toList

theorem Sha256.mem_hexDigits : ∀ {k n : ℕ}, ∀ c ∈ hexDigits k n, c ∈ "0123456789abcdef".toList
  | 0, _, _, hc => by cases hc
  | k + 1, n, c, hc => by
    have hdigit : ∀ d < 16, Nat.digitChar d ∈ "0123456789abcdef".toList := by decide
    rcases List.mem_cons.mp hc with rfl | hc
    · exact hdigit _ (Nat.mod_lt _ (by decide))
    · exact Sha256.mem_hexDigits c hc

theorem isDigest_sha256 (data : String) : IsDigest (sha256 data) := by
  refine ⟨length_sha256 data, fun c hc => ?_⟩
  rw [sha256, String.toList_ofList] at hc
  obtain ⟨word, -, hc⟩ := List.mem_flatMap.mp hc
  exact Sha256.mem_hexDigits c hc

/-! ## Evaluation

A text is packed into bytes, which is slow to unfold; the hash of given characters is computed from
the characters. -/

/-- The bytes of characters, one after the other. -/
def Sha256.utf8 (cs : List Char) : List ℕ := (cs.flatMap String.utf8EncodeChar).map UInt8.toNat

theorem Sha256.toList_loop (bs : ByteArray) (i : ℕ) (r : List UInt8) :
    ByteArray.toList.loop bs i r = r.reverse ++ bs.data.toList.drop i := by
  fun_induction ByteArray.toList.loop bs i r with
  | case1 i r hi ih =>
    have hlt : i < bs.data.toList.length := by simpa using hi
    rw [ih, List.drop_eq_getElem_cons hlt]
    simp [ByteArray.get!, hi]
  | case2 i r hi =>
    have hle : bs.data.toList.length ≤ i := by simpa using hi
    rw [List.drop_eq_nil_of_le hle, List.append_nil]

theorem Sha256.toUTF8_ofList (cs : List Char) :
    (String.ofList cs).toUTF8.toList.map UInt8.toNat = utf8 cs := by
  rw [utf8, ByteArray.toList, toList_loop, String.toUTF8_eq_toByteArray, String.toByteArray_ofList,
    List.utf8Encode, List.toList_data_toByteArray]
  rfl

/-- **The hash of given characters.** -/
theorem sha256_ofList {cs digits : List Char}
    (h : (Sha256.digest (Sha256.utf8 cs)).flatMap (Sha256.hexDigits 8) = digits) :
    sha256 (String.ofList cs) = String.ofList digits := by
  rw [sha256, Sha256.toUTF8_ofList, h]

theorem sha256_append_ofList {cs ds digits : List Char}
    (h : (Sha256.digest (Sha256.utf8 (cs ++ ds))).flatMap (Sha256.hexDigits 8) = digits) :
    sha256 (String.ofList cs ++ String.ofList ds) = String.ofList digits := by
  rw [← String.ofList_append]
  exact sha256_ofList h

/-- A text with its hash. -/
structure Hashed where
  text : String
  hash : String
  sha256_eq : sha256 text = hash

/-- The function tells these texts apart. -/
def Collisionless (hash : String → String) (texts : List String) : Prop :=
  ∀ s ∈ texts, ∀ t ∈ texts, hash s = hash t → s = t

/-- The digest that the standard gives as an example. -/
example : sha256 "abc" = "ba7816bf8f01cfea414140de5dae2223b00361a396177a9cb410ff61f20015ad" :=
  sha256_ofList (by decide)

end Foundations
