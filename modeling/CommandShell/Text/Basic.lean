/-!
Text as a list of characters and data as a list of bytes. Blanks and control
characters follow the Unicode properties White_Space and Cc. The cutting
functions below are the only ones the shell uses to take a line apart.
-/
namespace CommandShell

abbrev Text := List Char

abbrev Bytes := List UInt8

def isBlank (c : Char) : Bool :=
  let n := c.toNat
  (0x9 ≤ n && n ≤ 0xd) || n == 0x20 || n == 0x85 || n == 0xa0 || n == 0x1680 ||
    (0x2000 ≤ n && n ≤ 0x200a) || n == 0x2028 || n == 0x2029 || n == 0x202f ||
    n == 0x205f || n == 0x3000

def isControl (c : Char) : Bool :=
  let n := c.toNat
  n < 0x20 || (0x7f ≤ n && n ≤ 0x9f)

/-- The pieces between separators. Neighbouring separators have an empty piece
between them, and a list without separators is one piece. -/
def fields {α : Type} (separates : α → Bool) : List α → List (List α)
  | [] => [[]]
  | item :: rest =>
      if separates item then [] :: fields separates rest else
        match fields separates rest with
        | [] => [[item]]
        | piece :: pieces => (item :: piece) :: pieces

def joinWith {α : Type} (separator : List α) : List (List α) → List α
  | [] => []
  | [piece] => piece
  | piece :: next :: rest => piece ++ separator ++ joinWith separator (next :: rest)

def words (text : Text) : List Text :=
  (fields isBlank text).filter fun piece => !piece.isEmpty

def trimStart (text : Text) : Text :=
  text.dropWhile isBlank

def dropEndWhile {α : Type} (test : α → Bool) (items : List α) : List α :=
  (items.reverse.dropWhile test).reverse

def trimEnd (text : Text) : Text :=
  dropEndWhile isBlank text

def trim (text : Text) : Text :=
  trimEnd (trimStart text)

def isBlankText (text : Text) : Bool :=
  text.all isBlank

def afterPart? {α : Type} [BEq α] : List α → List α → Option (List α)
  | [], rest => some rest
  | _ :: _, [] => none
  | item :: part, other :: rest => if item == other then afterPart? part rest else none

def startsWith {α : Type} [BEq α] (items part : List α) : Bool :=
  (afterPart? part items).isSome

def splitAfterLast {α : Type} (test : α → Bool) (items : List α) : List α × List α :=
  let tail := (items.reverse.takeWhile fun item => !test item).reverse
  (items.take (items.length - tail.length), tail)

def lowerAscii (c : Char) : Char :=
  if 'A' ≤ c && c ≤ 'Z' then Char.ofNat (c.toNat + 32) else c

theorem fields_ne_nil {α : Type} (separates : α → Bool) (items : List α) :
    fields separates items ≠ [] := by
  cases items with
  | nil => simp [fields]
  | cons item rest =>
      unfold fields
      split
      · simp
      · split <;> simp

theorem fields_cons_separator {α : Type} (separates : α → Bool) (item : α) (rest : List α)
    (cut : separates item = true) :
    fields separates (item :: rest) = [] :: fields separates rest := by
  simp [fields, cut]

end CommandShell
