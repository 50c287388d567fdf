/-! Socket addresses: an IP address of four octets or of eight groups of 16 bits, and a port. -/
namespace RecordLog

structure IPv4 where
  a : UInt8
  b : UInt8
  c : UInt8
  d : UInt8
  deriving DecidableEq, Repr

/-- Eight groups, most significant first. -/
abbrev IPv6 := Vector UInt16 8

inductive SocketAddress
  | v4 (ip : IPv4) (port : UInt16)
  /-- A scope of zero names no interface. -/
  | v6 (ip : IPv6) (scope : UInt32) (port : UInt16)
  deriving DecidableEq, Repr

namespace IPv4

/-- The address that stands for all addresses of the host. -/
def any : IPv4 := ⟨0, 0, 0, 0⟩

def render (ip : IPv4) : String :=
  ".".intercalate ([ip.a, ip.b, ip.c, ip.d].map fun n => toString n.toNat)

end IPv4

namespace IPv6

/-- The address that stands for all addresses of the host, those of four octets too. -/
def any : IPv6 := .replicate 8 0

/-- The groups that hold `ip` where the low half of an address is written with dots. -/
def groupsOf (ip : IPv4) : List UInt16 :=
  [ip.a.toUInt16 * 256 + ip.b.toUInt16, ip.c.toUInt16 * 256 + ip.d.toUInt16]

/-- The address of four octets that is embedded, behind the groups `0:0:0:0:0:ffff`. -/
def mapped? (ip : IPv6) : Option IPv4 :=
  match ip.toList with
  | [0, 0, 0, 0, 0, 0xffff, high, low] =>
    some ⟨(high / 256).toUInt8, (high % 256).toUInt8, (low / 256).toUInt8, (low % 256).toUInt8⟩
  | _ => none

/-- Start and length of the longest run of zero groups, the first of several. -/
def longestZeros (groups : List UInt16) : Nat × Nat :=
  let runAt (i : Nat) := ((groups.drop i).takeWhile (· = 0)).length
  (List.range groups.length).foldl (fun best i =>
    if best.2 < runAt i then (i, runAt i) else best) (0, 0)

def renderGroups (groups : List UInt16) : String :=
  ":".intercalate (groups.map fun g => String.ofList (Nat.toDigits 16 g.toNat))

/-- Groups without leading zeros; the longest run of two or more zero groups becomes `::`. An
embedded address of four octets shows with dots. -/
def render (ip : IPv6) : String :=
  match mapped? ip with
  | some v4 => "::ffff:" ++ v4.render
  | none =>
    let groups := ip.toList
    let (start, length) := longestZeros groups
    if 1 < length then
      renderGroups (groups.take start) ++ "::" ++ renderGroups (groups.drop (start + length))
    else renderGroups groups

end IPv6

namespace SocketAddress

def port : SocketAddress → UInt16
  | v4 _ p | v6 _ _ p => p

def withPort (p : UInt16) : SocketAddress → SocketAddress
  | v4 ip _ => v4 ip p
  | v6 ip scope _ => v6 ip scope p

/-- The address without the port. -/
def renderIp : SocketAddress → String
  | v4 ip _ => ip.render
  | v6 ip _ _ => IPv6.render ip

def render : SocketAddress → String
  | v4 ip p => s!"{ip.render}:{p.toNat}"
  | v6 ip scope p =>
    let zone := if scope = 0 then "" else s!"%{scope.toNat}"
    s!"[{IPv6.render ip}{zone}]:{p.toNat}"

end SocketAddress

end RecordLog
