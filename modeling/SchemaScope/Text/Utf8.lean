/-
**Bytes and characters.**

Bytes that are no UTF-8 are read with replacement characters, one for every longest stretch of bytes
that could have opened a character.  Places in a text are counted in bytes, and a place counts only
if it lies between two characters.

Main definitions:

* `Utf8.unitAt` — the character that opens a list of bytes, and how many bytes it takes;
* `Utf8.decodeLossy` — the text of bytes, with replacements;
* `Utf8.bytes`, `Utf8.size` — the bytes of characters, and their number;
* `Utf8.splitAt?` — a text divided at a byte offset.
-/

set_option autoImplicit false

namespace SchemaScope.Utf8

/-! ### Decoding -/

/-- The character that stands for bytes that are none. -/
def replacement : Char := '\uFFFD'

/-- Bytes that go on with a character. -/
def isContinuation (b : UInt8) : Bool := 0x80 ≤ b && b ≤ 0xBF

/-- The second bytes that can follow the first of a longer character. -/
def secondRange (first : UInt8) : UInt8 × UInt8 :=
  if first == 0xE0 then (0xA0, 0xBF)
  else if first == 0xED then (0x80, 0x9F)
  else if first == 0xF0 then (0x90, 0xBF)
  else if first == 0xF4 then (0x80, 0x8F)
  else (0x80, 0xBF)

/-- The number of bytes that the first byte of a character announces, or zero. -/
def announced (first : UInt8) : Nat :=
  if first < 0x80 then 1
  else if 0xC2 ≤ first && first ≤ 0xDF then 2
  else if 0xE0 ≤ first && first ≤ 0xEF then 3
  else if 0xF0 ≤ first && first ≤ 0xF4 then 4
  else 0

/-- How many of the announced bytes are there, after a first byte that announces more than one. -/
def present (first : UInt8) (count : Nat) (rest : List UInt8) : Nat :=
  let (low, high) := secondRange first
  match rest with
  | second :: more =>
      if low ≤ second && second ≤ high then
        2 + ((more.take (count - 2)).takeWhile isContinuation).length
      else 1
  | [] => 1

/-- The bits that a byte contributes after the first. -/
def payload (b : UInt8) : Nat := b.toNat % 64

/-- The number that the bytes of a character stand for. -/
def codePoint (first : UInt8) (count : Nat) (rest : List UInt8) : Nat :=
  let lead := first.toNat % (128 >>> count)
  (rest.take (count - 1)).foldl (fun n b => n * 64 + payload b) lead

/-- The character that opens a list of bytes and the number of bytes it takes; without one, the
number of bytes that could have opened one. -/
def unitAt (first : UInt8) (rest : List UInt8) : Option Char × Nat :=
  match announced first with
  | 0 => (none, 1)
  | 1 => (some (Char.ofNat first.toNat), 1)
  | count =>
      let found := present first count rest
      if found == count then (some (Char.ofNat (codePoint first count rest)), count)
      else (none, found)

/-- The characters of bytes, with replacements.  `skip` bytes have been read already. -/
def decodeFrom : Nat → List UInt8 → List Char
  | _, [] => []
  | skip + 1, _ :: bs => decodeFrom skip bs
  | 0, b :: bs =>
      let (c, width) := unitAt b bs
      c.getD replacement :: decodeFrom (width - 1) bs

/-- The text of bytes, with replacements. -/
def decodeLossy (bytes : ByteArray) : String := String.ofList (decodeFrom 0 bytes.toList)

/-! ### Encoding -/

/-- The bytes of characters. -/
def bytes (cs : List Char) : List UInt8 := cs.flatMap String.utf8EncodeChar

@[simp] theorem bytes_nil : bytes [] = [] := rfl

@[simp] theorem bytes_cons (c : Char) (cs : List Char) :
    bytes (c :: cs) = String.utf8EncodeChar c ++ bytes cs := rfl

@[simp] theorem bytes_append (s t : List Char) : bytes (s ++ t) = bytes s ++ bytes t :=
  List.flatMap_append

/-! ### Byte offsets -/

/-- The number of bytes of characters. -/
def size : List Char → Nat
  | [] => 0
  | c :: cs => c.utf8Size + size cs

@[simp] theorem size_nil : size [] = 0 := rfl

@[simp] theorem size_cons (c : Char) (cs : List Char) : size (c :: cs) = c.utf8Size + size cs := rfl

@[simp] theorem size_append (s t : List Char) : size (s ++ t) = size s + size t := by
  induction s with
  | nil => simp
  | cons c cs ih => simp [ih, Nat.add_assoc]

@[simp] theorem length_bytes (cs : List Char) : (bytes cs).length = size cs := by
  induction cs with
  | nil => rfl
  | cons c cs ih => simp [ih]

/-- A text divided at a byte offset, if the offset lies within the text and between two
characters. -/
def splitAt? : Nat → List Char → Option (List Char × List Char)
  | 0, cs => some ([], cs)
  | _ + 1, [] => none
  | n + 1, c :: cs =>
      if c.utf8Size ≤ n + 1 then
        (splitAt? (n + 1 - c.utf8Size) cs).map fun (before, after) => (c :: before, after)
      else none

/-- A division keeps the text. -/
theorem splitAt?_append {n : Nat} {cs before after : List Char}
    (h : splitAt? n cs = some (before, after)) : before ++ after = cs := by
  induction cs generalizing n before after with
  | nil =>
      cases n with
      | zero =>
          simp only [splitAt?, Option.some.injEq, Prod.mk.injEq] at h
          obtain ⟨rfl, rfl⟩ := h
          rfl
      | succ n => simp [splitAt?] at h
  | cons c cs ih =>
      cases n with
      | zero =>
          simp only [splitAt?, Option.some.injEq, Prod.mk.injEq] at h
          obtain ⟨rfl, rfl⟩ := h
          rfl
      | succ n =>
          rw [splitAt?] at h
          split at h
          · obtain ⟨⟨b, a⟩, hb, he⟩ := Option.map_eq_some_iff.1 h
            cases he
            simp [ih hb]
          · cases h

/-- A division lies at its offset. -/
theorem splitAt?_size {n : Nat} {cs before after : List Char}
    (h : splitAt? n cs = some (before, after)) : size before = n := by
  induction cs generalizing n before after with
  | nil =>
      cases n with
      | zero =>
          simp only [splitAt?, Option.some.injEq, Prod.mk.injEq] at h
          obtain ⟨rfl, rfl⟩ := h
          rfl
      | succ n => simp [splitAt?] at h
  | cons c cs ih =>
      cases n with
      | zero =>
          simp only [splitAt?, Option.some.injEq, Prod.mk.injEq] at h
          obtain ⟨rfl, rfl⟩ := h
          rfl
      | succ n =>
          rw [splitAt?] at h
          split at h
          · obtain ⟨⟨b, a⟩, hb, he⟩ := Option.map_eq_some_iff.1 h
            cases he
            have := ih hb
            simp only [size_cons]
            omega
          · cases h

end SchemaScope.Utf8
