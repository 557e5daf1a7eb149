import ColumnCipher.CommandLine
/-!
The program: it reads the configuration file of a command, draws the nonces, and prints what the
command leaves.
-/
open ColumnCipher

def viewFile (path : String) : IO FileView := do
  try
    return .content (← IO.FS.readBinFile path).data.toList
  catch e =>
    match e with
    | .noFileOrDirectory .. => return .missing
    | .inappropriateType .. => return .directory
    | e => return .unreadable (toString e)

def drawNonces (count : Nat) : IO NonceStream := do
  let bytes ← IO.getRandomBytes (USize.ofNat (12 * count))
  let list := bytes.data.toList
  return ⟨fun i => Bytes.vector 12 (list.drop (12 * i)), 0⟩

def usage : String :=
  "usage: validate CONFIG\n"
    ++ "       encrypt CONFIG --table T --column C [--assisted] [--database D] [--schema S] [VALUES]\n"
    ++ "       decrypt CONFIG --table T --column C [--database D] [--schema S] [VALUES]"

def main (arguments : List String) : IO UInt32 := do
  match CommandLine.read arguments with
  | none =>
    IO.eprintln usage
    return 2
  | some command =>
    let view ← viewFile command.config
    let nonces ← drawNonces command.nonceCount
    let o := CommandLine.outcome command view nonces
    IO.print o.output
    IO.eprint o.error
    return UInt32.ofNat o.exit
