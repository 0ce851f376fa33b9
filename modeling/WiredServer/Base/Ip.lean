import Mathlib
import WiredServer.Base.XmlTree

/-! IP addresses as texts, and the patterns they are matched with. A pattern is an address, an
address with wildcards, or an address with a prefix length or a netmask.
-/

namespace WiredServer.Ip

/-- `wi_ip_version_t`. -/
inductive Version where
  | null
  | ipv4
  | ipv6
  deriving DecidableEq, Repr

/-- An octet as `inet_pton` reads it: decimal digits without a leading zero, up to 255. -/
def isOctet (digits : List Char) : Bool :=
  digits.length ≤ 3
    && (digitsValue 10 digits).any (fun value => value ≤ 255)
    && (digits = ['0'] || digits.head?.any (· ≠ '0'))

/-- `inet_pton` reads the text as an IPv4 address: four octets between dots. -/
def isIpv4 (text : List Char) : Bool :=
  let octets := text.splitOn '.'
  octets.length = 4 && octets.all isOctet

/-- How far `inet_pton` is in an IPv6 address: the groups it has stored, whether it has seen two
colons in a row, and the digits of the group it is reading.
-/
structure GroupScan where
  groups : ℕ := 0
  elided : Bool := false
  digits : ℕ := 0

/-- The rest of the text completes an IPv6 address. Addresses that end like an IPv4 address do not
come here, for they have dots.
-/
def groupsComplete (scan : GroupScan) : List Char → Bool
  | [] =>
      let groups := if scan.digits = 0 then scan.groups else scan.groups + 1
      if scan.elided then groups < 8 else groups = 8
  | ':' :: rest =>
      if scan.digits = 0 then !scan.elided && groupsComplete { scan with elided := true } rest
      else
        rest ≠ [] && scan.groups < 8
          && groupsComplete { scan with groups := scan.groups + 1, digits := 0 } rest
  | char :: rest =>
      (digitValue char).isSome && scan.digits < 4
        && groupsComplete { scan with digits := scan.digits + 1 } rest

/-- `inet_pton` reads the text as an IPv6 address: a colon in front must be followed by another. -/
def isIpv6 : List Char → Bool
  | ':' :: ':' :: rest => groupsComplete {} (':' :: rest)
  | ':' :: _ => false
  | text => groupsComplete {} text

/-- `wi_ip_version`. -/
def version (ip : String) : Version :=
  let text := ip.toList
  if '.' ∈ text then if isIpv4 text then .ipv4 else .null
  else if ':' ∈ text then if isIpv6 text then .ipv6 else .null
  else .null

/-- An unsigned number as `sscanf` reads it for `%u`, with the rest of the text. A number that is
too large for `strtoul` counts as the largest one.
-/
def scanUnsigned (text : List Char) : Option (UInt32 × List Char) :=
  let text := text.dropWhile isSpace
  let (negative, text) := match text with
    | '-' :: rest => (true, rest)
    | '+' :: rest => (false, rest)
    | rest => (false, rest)
  let digits := text.takeWhile Char.isDigit
  (digitsValue 10 digits).bind fun value =>
    if digits = [] then none
    else
      let long : UInt64 :=
        if value < 2 ^ 64 then if negative then -.ofNat value else .ofNat value
        else .ofNat (2 ^ 64 - 1)
      some (long.toUInt32, text.dropWhile Char.isDigit)

/-- `_wi_ipv4_uint32`: what follows the fourth number is ignored. -/
def ipv4UInt32 (ip : String) : UInt32 :=
  let dotted : Option UInt32 := do
    let (a, rest) ← scanUnsigned ip.toList
    let rest ← if rest.head? = some '.' then some rest.tail else none
    let (b, rest) ← scanUnsigned rest
    let rest ← if rest.head? = some '.' then some rest.tail else none
    let (c, rest) ← scanUnsigned rest
    let rest ← if rest.head? = some '.' then some rest.tail else none
    let (d, _) ← scanUnsigned rest
    some ((a <<< 24) + (b <<< 16) + (c <<< 8) + d)
  dotted.getD 0

/-- `wi_string_uint32`: a text that is no number counts as zero, and so does one out of range. -/
def stringUInt32 (text : List Char) : UInt32 :=
  match signedValue text with
  | some value =>
      if value.natAbs < 2 ^ 64 ∧ value % 2 ^ 64 < 2 ^ 32 then .ofInt (value % 2 ^ 64) else 0
  | none => 0

/-- The netmask of a prefix length, as a difference of two floating-point powers of two. From 54
bits on the difference is rounded to `2 ^ 32`, which does not fit: what its conversion gives is
left open.
-/
def prefixNetmask (unfit cidr : UInt32) : UInt32 :=
  if cidr ≤ 32 then .ofNat (2 ^ 32 - 2 ^ (32 - cidr.toNat))
  else if cidr ≤ 53 then .ofNat (2 ^ 32 - 1)
  else unfit

/-- `_wi_ipv4_match_wildcard`. -/
def ipv4MatchWildcard (ip pattern : String) : Bool :=
  let ipOctets := ip.toList.splitOn '.'
  let patternOctets := pattern.toList.splitOn '.'
  ipOctets.length = 4 && ipOctets.length = patternOctets.length
    && (ipOctets.zip patternOctets).all fun octets =>
      octets.1 = octets.2 || octets.2 = ['*']

/-- `_wi_ipv4_match_netmask`. -/
def ipv4MatchNetmask (unfit : UInt32) (ip pattern : String) : Bool :=
  match pattern.toList.splitOn '/' with
  | [patternIp, patternNetmask] =>
      let netmask :=
        if '.' ∈ patternNetmask then ipv4UInt32 (.ofList patternNetmask)
        else prefixNetmask unfit (stringUInt32 patternNetmask)
      (ipv4UInt32 ip) &&& netmask = (ipv4UInt32 (.ofList patternIp)) &&& netmask
  | _ => false

/-- `_wi_ipv4_match_literal`. -/
def ipv4MatchLiteral (ip pattern : String) : Bool :=
  ip = pattern

/-- `_wi_ipv6_expanded_value`: every group has four digits, and groups that lack stand in front. -/
def ipv6ExpandedValue (ip : String) : Option (List (List Char)) :=
  let octets := ip.toList.splitOn ':'
  if octets.length < 3 then none
  else
    let octets := octets.dropWhile (· = [])
    let octets := octets.map fun octet => List.replicate (4 - octet.length) '0' ++ octet
    some (List.replicate (8 - octets.length) ['0', '0', '0', '0'] ++ octets)

/-- `_wi_ipv6_match_literal`. -/
def ipv6MatchLiteral (ip pattern : String) : Bool :=
  match ipv6ExpandedValue ip, ipv6ExpandedValue pattern with
  | some ipExpanded, some patternExpanded => ipExpanded = patternExpanded
  | _, _ => false

/-- `wi_ip_matches_string`: the address selects the syntax of the pattern. -/
def matchesString (unfit : UInt32) (ip pattern : String) : Bool :=
  match version ip with
  | .ipv4 =>
      if '*' ∈ pattern.toList then ipv4MatchWildcard ip pattern
      else if '/' ∈ pattern.toList then ipv4MatchNetmask unfit ip pattern
      else ipv4MatchLiteral ip pattern
  | .ipv6 => ipv6MatchLiteral ip pattern
  | .null => false

example : version "fe80::1" = .ipv6 ∧ version "192.168.1.300" = .null := by decide

example : matchesString 0 "192.168.1.2" "192.168.*.*" ∧ matchesString 0 "10.1.2.3" "10.0.0.0/8"
    ∧ ¬matchesString 0 "10.1.2.3" "10.0.0.0/255.255.0.0" := by
  decide

end WiredServer.Ip
