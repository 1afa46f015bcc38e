import CommandShell.Text.Basic

/-!
Text in which every character stands for one byte, its number. Programs that know nothing
of encodings see bytes that way.
-/
namespace CommandShell

namespace Latin

def ofBytes (bytes : Bytes) : Text :=
  bytes.map fun byte => Char.ofNat byte.toNat

def toBytes (text : Text) : Bytes :=
  text.map fun c => UInt8.ofNat c.toNat

end Latin

end CommandShell
