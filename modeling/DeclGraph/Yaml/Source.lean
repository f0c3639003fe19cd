import DeclGraph.Text.Lines
import DeclGraph.Yaml.Cursor

/-!
The characters of a YAML file. A file is decoded a chunk of bytes at a time and checked a block of
characters at a time, so what is wrong with a later part shows only after the earlier part was read.
-/

namespace DeclGraph.Yaml

/-- The part of a text that can be read, and why it goes no further. -/
structure Source where
  chars : List Char
  ending : Option Failure
  deriving Inhabited

namespace Source

def chunkSize : Nat := 8192

/-- Characters that are checked at once; the first two blocks are taken together. -/
def blockSize : Nat := 4096

def isAllowed (c : Char) : Bool :=
  c = '\t' || c = '\n' || c = '\r' || c = '\x85'
    || (0x20 ≤ c.toNat && c.toNat ≤ 0x7e)
    || (0xa0 ≤ c.toNat && c.toNat ≠ 0xfffe && c.toNat ≠ 0xffff)

/-- The whole blocks before a position, as long as the first two are among them. -/
def wholeBlocks (chars : List Char) (position : Nat) : List Char :=
  if position < 2 * blockSize then [] else chars.take (position / blockSize * blockSize)

/-- The source up to the block with a character that is not allowed. -/
def checked (source : Source) : Source :=
  match source.chars.findIdx? fun c => !isAllowed c with
  | none => source
  | some position => ⟨wholeBlocks source.chars position, some .malformed⟩

/-- The source of bytes of which not all are UTF-8: the blocks from the chunks before the flaw. The
flaw is reported by its place in what is left of its chunk. -/
def ofFaulty (bytes : List UInt8) : Source :=
  let (decoded, found) := Text.decodeUntilFlaw bytes.length bytes 0
  let flaw := found.getD default
  let limit := (flaw.noticed?.map fun position => position / chunkSize * chunkSize).getD bytes.length
  let earlier := decoded.filter fun entry => entry.2 ≤ limit
  let chars := Text.unifyBreaks (earlier.map (·.1))
  let start := (earlier.getLast?.map (·.2)).getD 0
  ⟨wholeBlocks chars chars.length,
    some (.unusable (.undecodable { flaw with position := flaw.position - start }))⟩

def ofBytes (bytes : ByteArray) : Source :=
  let decoded : Source := match Text.ofBytes bytes with
    | .ok text => ⟨text.toList, none⟩
    | .error _ => ofFaulty bytes.toList
  decoded.checked

end Source

end DeclGraph.Yaml
