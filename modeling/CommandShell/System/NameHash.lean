import CommandShell.System.Path

/-!
The order in which a folder lists its names. A folder finds its names by a hash of them and
lists them by growing hash, so the order depends on the names alone. The hash is the
half MD4 of a name from MD4's own starting words, and bytes count as signed.
-/
namespace CommandShell

structure NameHash where
  a : UInt32
  b : UInt32
  c : UInt32
  d : UInt32
  deriving Repr, DecidableEq

namespace NameHash

def start : NameHash :=
  ⟨0x67452301, 0xefcdab89, 0x98badcfe, 0x10325476⟩

structure Round where
  mix : UInt32 → UInt32 → UInt32 → UInt32
  constant : UInt32
  order : List Nat
  shifts : List UInt32

def rounds : List Round :=
  [⟨fun x y z => z ^^^ (x &&& (y ^^^ z)), 0, [0, 1, 2, 3, 4, 5, 6, 7], [3, 7, 11, 19]⟩,
    ⟨fun x y z => (x &&& y) + ((x ^^^ y) &&& z), 0x5a827999, [1, 3, 5, 7, 0, 2, 4, 6],
      [3, 5, 9, 13]⟩,
    ⟨fun x y z => x ^^^ y ^^^ z, 0x6ed9eba1, [3, 7, 2, 6, 1, 5, 0, 4], [3, 9, 11, 15]⟩]

def rotate (word count : UInt32) : UInt32 :=
  (word <<< count) ||| (word >>> (32 - count))

def step (round : Round) (hash : NameHash) (word shift : UInt32) : NameHash :=
  ⟨hash.d,
    rotate (hash.a + round.mix hash.b hash.c hash.d + word + round.constant) shift,
    hash.b, hash.c⟩

def runRound (block : List UInt32) (hash : NameHash) (round : Round) : NameHash :=
  (round.order.zip (round.shifts ++ round.shifts)).foldl
    (fun hash (index, shift) => step round hash ((block[index]?).getD 0) shift) hash

def addBlock (hash : NameHash) (block : List UInt32) : NameHash :=
  let mixed := rounds.foldl (runRound block) hash
  ⟨hash.a + mixed.a, hash.b + mixed.b, hash.c + mixed.c, hash.d + mixed.d⟩

def signedWord (byte : UInt8) : UInt32 :=
  if byte < 128 then byte.toUInt32 else byte.toUInt32 + 0xffffff00

/-- The eight words of a block, four bytes each. Where bytes are missing the length of what
is left of the name stands in every byte of a word. -/
def blockWords (name : Name) : List UInt32 :=
  let length := UInt32.ofNat name.length
  let half := length ||| (length <<< 8)
  let padding := half ||| (half <<< 16)
  (List.range 8).map fun index =>
    ((name.drop (4 * index)).take 4).foldl (fun word byte => (word <<< 8) + signedWord byte)
      padding

def ofName (name : Name) : NameHash :=
  (List.range ((name.length + 31) / 32)).foldl
    (fun hash index => hash.addBlock (blockWords (name.drop (32 * index)))) start

def major (hash : NameHash) : UInt32 :=
  let even := hash.b &&& 0xfffffffe
  if even = 0xfffffffe then 0xfffffffc else even

def le (left right : NameHash) : Bool :=
  left.major < right.major || (left.major == right.major && left.c ≤ right.c)

def order (names : List Name) : List Name :=
  ((names.map fun name => (ofName name, name)).mergeSort fun left right => left.1.le right.1).map
    (·.2)

end NameHash

end CommandShell
