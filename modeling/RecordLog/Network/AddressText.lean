import RecordLog.Network.Address

/-! Reading socket addresses. Four octets are written in decimal with dots and without leading
zeros. Eight groups are written in hexadecimal with colons inside brackets, where `::` stands for
one or more zero groups, the last two groups may be written as four octets, and a scope number may
follow a percent sign. A port follows a colon. -/
namespace RecordLog.SocketAddress

/-- Reads a piece off the front of a text. -/
abbrev Reader (α : Type) := List Char → Option (α × List Char)

def given (c : Char) : Reader Unit
  | d :: cs => if d = c then some ((), cs) else none
  | [] => none

def digitValue? (base : Nat) (c : Char) : Option Nat :=
  let value? :=
    if '0' ≤ c ∧ c ≤ '9' then some (c.toNat - '0'.toNat)
    else if 'a' ≤ c ∧ c ≤ 'f' then some (c.toNat - 'a'.toNat + 10)
    else if 'A' ≤ c ∧ c ≤ 'F' then some (c.toNat - 'A'.toNat + 10)
    else none
  value?.filter (· < base)

/-- A number below `bound` of one or more digits, at most `width` of them if a width is given. -/
def number (base bound : Nat) (width : Option Nat) (zeroFirst : Bool) : Reader Nat := fun cs =>
  let isDigit (c : Char) := (digitValue? base c).isSome
  let digits := cs.takeWhile isDigit
  let value := (digits.filterMap (digitValue? base)).foldl (fun n d => n * base + d) 0
  if digits.isEmpty ∨ width.any (· < digits.length) ∨ bound ≤ value then none
  else if !zeroFirst && digits.head? = some '0' && 1 < digits.length then none
  else some (value, cs.dropWhile isDigit)

def octet : Reader UInt8 := fun cs =>
  (number 10 256 (some 3) false cs).map fun (n, rest) => (n.toUInt8, rest)

def group : Reader UInt16 := fun cs =>
  (number 16 65536 (some 4) true cs).map fun (n, rest) => (n.toUInt16, rest)

def dottedOctet : Reader UInt8 := fun cs => (given '.' cs).bind fun (_, cs) => octet cs

def ipv4 : Reader IPv4 := fun cs => do
  let (a, cs) ← octet cs
  let (b, cs) ← dottedOctet cs
  let (c, cs) ← dottedOctet cs
  let (d, cs) ← dottedOctet cs
  some (⟨a, b, c, d⟩, cs)

/-- What stands between two groups: nothing before the first, a colon before the others. -/
def separator (first : Bool) : Reader Unit := fun cs =>
  if first then some ((), cs) else given ':' cs

/-- Up to `room` groups with colons between them. Four octets with dots fill the last two and end
the sequence; the flag tells whether it ended so. -/
def groups (first : Bool) : Nat → List Char → List UInt16 × Bool × List Char
  | 0, cs => ([], false, cs)
  | room + 1, cs =>
    let start? := separator first cs
    let embedded? := if room = 0 then none else start?.bind fun (_, cs) => ipv4 cs
    match embedded? with
    | some (ip, rest) => (IPv6.groupsOf ip, true, rest)
    | none =>
      match start?.bind fun (_, cs) => group cs with
      | none => ([], false, cs)
      | some (g, rest) =>
        let (more, ended, rest) := groups false room rest
        (g :: more, ended, rest)

/-- Eight groups from the groups before and after `::`. -/
def spread (front back : List UInt16) : IPv6 :=
  Vector.ofFn fun i =>
    let all := front ++ List.replicate (8 - front.length - back.length) 0 ++ back
    all[i.val]?.getD 0

def ipv6 : Reader IPv6 := fun cs =>
  let (front, ended, cs) := groups true 8 cs
  if front.length = 8 then some (spread front [], cs)
  else if ended then none
  else do
    let (_, cs) ← given ':' cs
    let (_, cs) ← given ':' cs
    let (back, _, cs) := groups true (7 - front.length) cs
    some (spread front back, cs)

def portNumber : Reader UInt16 := fun cs => do
  let (_, cs) ← given ':' cs
  let (n, cs) ← number 10 65536 none true cs
  some (n.toUInt16, cs)

def scopeNumber : Reader UInt32 := fun cs => do
  let (_, cs) ← given '%' cs
  let (n, cs) ← number 10 4294967296 none true cs
  some (n.toUInt32, cs)

def v4Address : Reader SocketAddress := fun cs => do
  let (ip, cs) ← ipv4 cs
  let (p, cs) ← portNumber cs
  some (.v4 ip p, cs)

def v6Address : Reader SocketAddress := fun cs => do
  let (_, cs) ← given '[' cs
  let (ip, cs) ← ipv6 cs
  let (scope, cs) := (scopeNumber cs).getD (0, cs)
  let (_, cs) ← given ']' cs
  let (p, cs) ← portNumber cs
  some (.v6 ip scope p, cs)

/-- The address that a text spells, with nothing before or after it. -/
def parse? (text : String) : Option SocketAddress :=
  match v4Address text.toList <|> v6Address text.toList with
  | some (address, []) => some address
  | _ => none

end RecordLog.SocketAddress
