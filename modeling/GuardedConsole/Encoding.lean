import GuardedConsole.Failure
import GuardedConsole.Number.Digits

/-!
# Encoding

What goes to a file or to standard output is encoded first. Half of a surrogate pair has no encoding:
`checkEncodable` fails on a text that has one, and says where.
-/

namespace GuardedConsole.Text

/-- The position of the first half of a surrogate pair, and how many of them stand in a row there. -/
def firstHalves? (t : Text) : Option (Nat × Nat) :=
  let start := (t.takeWhile fun c => !c.isHalf).length
  match ((t.drop start).takeWhile CodePoint.isHalf).length with
  | 0 => none
  | count + 1 => some (start, count + 1)

/-- The failure to encode a text in which `count` halves of surrogate pairs stand in a row, the first
of them at a position. -/
def unencodable (t : Text) (position count : Nat) : Failure :=
  let what :=
    if count = 1 then
      "character '\\u".toText ++ ((t.drop position).take 1).flatMap (fun c => hexDigits 4 c.toNat) ++
        "' in position ".toText ++ Number.natText position
    else
      "characters in position ".toText ++ Number.natText position ++
        .char '-' :: Number.natText (position + count - 1)
  .fault .unencodable
    ("'utf-8' codec can't encode ".toText ++ what ++ ": surrogates not allowed".toText)

def checkEncodable (t : Text) : Except Failure Unit :=
  match t.firstHalves? with
  | some (position, count) => .error (t.unencodable position count)
  | none => .ok ()

end GuardedConsole.Text
