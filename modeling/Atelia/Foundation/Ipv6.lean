import Atelia.Foundation.Text

/-! Textual IPv6 addresses: up to eight groups of hexadecimal digits, one run of zero groups
written as `::`, and the last two groups possibly as an IPv4 address. -/

namespace Atelia.Ipv6

/-- Between `1` and `limit` digits in a row, which no further digit follows. -/
private def readDigits (isDigit : Char → Bool) (limit : Nat) (text : List Char) :
    Option (List Char × List Char) :=
  let (digits, rest) := text.span isDigit
  if 1 ≤ digits.length ∧ digits.length ≤ limit then some (digits, rest) else none

/-- A decimal number below 256 without a leading zero. -/
private def readOctet (text : List Char) : Option (List Char) := do
  let (digits, rest) ← readDigits Char.isDigit 3 text
  guard (digits.length = 1 ∨ digits.head? ≠ some '0')
  guard (digits.foldl (fun value digit => value * 10 + (digit.toNat - '0'.toNat)) 0 < 256)
  return rest

private def readGroup (text : List Char) : Option (List Char) :=
  (readDigits Text.isHexDigit 4 text).map Prod.snd

/-- Every part but the first follows a separator. -/
private def readSeparated (separator : Char) (index : Nat)
    (reader : List Char → Option (List Char)) (text : List Char) : Option (List Char) :=
  match index, text with
  | 0, _ => reader text
  | _, character :: rest => if character = separator then reader rest else none
  | _, [] => none

private def readIpv4 (text : List Char) : Option (List Char) :=
  (List.range 4).foldlM (fun rest index => readSeparated '.' index readOctet rest) text

/-- Read at most `left` groups after `count` others: how many there are then,
whether the last two are an IPv4 address, and what follows. -/
private def readGroups : Nat → Nat → List Char → Nat × Bool × List Char
  | 0, count, text => (count, false, text)
  | left + 1, count, text =>
    -- an IPv4 address takes the place of two groups
    match if 1 ≤ left then readSeparated ':' count readIpv4 text else none with
    | some rest => (count + 2, true, rest)
    | none =>
      match readSeparated ':' count readGroup text with
      | some rest => readGroups left (count + 1) rest
      | none => (count, false, text)

/-- The whole text is an address. -/
def accepts (text : String) : Bool :=
  let (count, endsInIpv4, rest) := readGroups 8 0 text.toList
  if count = 8 then rest.isEmpty
  else if endsInIpv4 then false
  else
    match rest with
    | ':' :: ':' :: rest => (readGroups (8 - (count + 1)) 0 rest).2.2.isEmpty
    | _ => false

example : (["::", "::1", "1::", "2001:db8::8a2e:370:7334", "1:2:3:4:5:6:7:8", "::ffff:192.0.2.1",
    "1:2:3:4:5:6:192.0.2.1"].map accepts).all id = true := by decide +kernel

example : (["", ":", "1:2:3:4:5:6:7", "1:2:3:4:5:6:7:8:9", "1::2::3", "12345::", "::1.2.3",
    "::01.2.3.4", "1.2.3.4::", "::256.0.0.1"].map accepts).any id = false := by decide +kernel

end Atelia.Ipv6
