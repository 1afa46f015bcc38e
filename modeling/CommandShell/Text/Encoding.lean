import CommandShell.Text.Basic

/-!
The byte form of text. `encode` and `decode?` are the strict pair: decoding
succeeds exactly on encoded text. `decodeLossy` is for display only and puts
U+FFFD where a maximal ill-formed part stood. Lengths and the order of names
are those of the byte form.
-/
namespace CommandShell

def encode (text : Text) : Bytes :=
  text.flatMap String.utf8EncodeChar

def decode? (bytes : Bytes) : Option Text :=
  (bytes.toByteArray.utf8Decode?).map Array.toList

def byteLength : Text → Nat
  | [] => 0
  | c :: rest => c.utf8Size + byteLength rest

def clip (limit : Nat) : Text → Text
  | [] => []
  | c :: rest => if c.utf8Size ≤ limit then c :: clip (limit - c.utf8Size) rest else []

/-- The length of the ill-formed part at the start of bytes that do not begin with a
whole character: the longest beginning that a well-formed character could still
share, and at least one byte. -/
def brokenLength : Bytes → Nat
  | [] => 0
  | lead :: rest =>
      let continues (low high : UInt8) : Bool :=
        match rest with
        | [] => false
        | second :: _ => low ≤ second && second ≤ high
      let third : Bool :=
        match rest with
        | _ :: byte :: _ => 0x80 ≤ byte && byte ≤ 0xbf
        | _ => false
      if lead == 0xe0 then (if continues 0xa0 0xbf then 2 else 1)
      else if lead == 0xed then (if continues 0x80 0x9f then 2 else 1)
      else if 0xe1 ≤ lead && lead ≤ 0xef then (if continues 0x80 0xbf then 2 else 1)
      else if lead == 0xf0 then (if continues 0x90 0xbf then (if third then 3 else 2) else 1)
      else if lead == 0xf4 then (if continues 0x80 0x8f then (if third then 3 else 2) else 1)
      else if 0xf1 ≤ lead && lead ≤ 0xf3 then
        (if continues 0x80 0xbf then (if third then 3 else 2) else 1)
      else 1

def leadingChar? (bytes : Bytes) : Option (Char × Nat) :=
  ([1, 2, 3, 4].findSome? fun n =>
    match decode? (bytes.take n) with
    | some [c] => some (c, n)
    | _ => none)

def decodeLossy (bytes : Bytes) : Text :=
  go bytes.length bytes
where
  go : Nat → Bytes → Text
  | 0, _ => []
  | _, [] => []
  | steps + 1, bytes =>
      match leadingChar? bytes with
      | some (c, n) => c :: go steps (bytes.drop n)
      | none => Char.ofNat 0xfffd :: go steps (bytes.drop (max 1 (brokenLength bytes)))

def bytesLe : Bytes → Bytes → Bool
  | [], _ => true
  | _ :: _, [] => false
  | a :: left, b :: right => if a == b then bytesLe left right else a < b

def textLe (left right : Text) : Bool :=
  bytesLe (encode left) (encode right)

def sortTexts (texts : List Text) : List Text :=
  texts.mergeSort textLe

def dropRepeats {α : Type} [BEq α] : List α → List α
  | [] => []
  | [item] => [item]
  | item :: next :: rest =>
      if item == next then dropRepeats (next :: rest) else item :: dropRepeats (next :: rest)

theorem decode?_encode (text : Text) : decode? (encode text) = some text := by
  have same : (encode text).toByteArray = text.utf8Encode := by
    simp [encode, List.utf8Encode]
  simp [decode?, same]

theorem byteLength_append (left right : Text) :
    byteLength (left ++ right) = byteLength left + byteLength right := by
  induction left with
  | nil => simp [byteLength]
  | cons c rest ih => simp [byteLength, ih, Nat.add_assoc]

theorem length_encode (text : Text) : (encode text).length = byteLength text := by
  induction text with
  | nil => rfl
  | cons c rest ih =>
      simp only [encode, byteLength, List.flatMap_cons, List.length_append,
        String.length_utf8EncodeChar] at ih ⊢
      rw [ih]

theorem byteLength_clip (limit : Nat) (text : Text) : byteLength (clip limit text) ≤ limit := by
  induction text generalizing limit with
  | nil => simp [clip, byteLength]
  | cons c rest ih =>
      unfold clip
      split
      · next fits =>
          have := ih (limit - c.utf8Size)
          simp only [byteLength]
          omega
      · simp [byteLength]

theorem clip_of_le (limit : Nat) (text : Text) (fits : byteLength text ≤ limit) :
    clip limit text = text := by
  induction text generalizing limit with
  | nil => rfl
  | cons c rest ih =>
      simp only [byteLength] at fits
      unfold clip
      rw [if_pos (by omega), ih]
      omega

end CommandShell
