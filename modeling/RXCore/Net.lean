import Mathlib

/-!
# Network addresses

The part of `std::net` that the engine relies on: address types, their text and the tests on them.

* `Ipv4Addr`, `Ipv6Addr`, `IpAddr`, `SocketAddr`;
* `parseIpAddr`, `parseSocketAddr`, built from `readNumber`, `readIpv4Addr`, `readGroups`, `readIpv6Addr`
  as the parser of the standard library is;
* `IpAddr.display`, with the longest run of zero groups shortened;
* **`Ipv4Addr.ofOctets_octets`**, **`Ipv6Addr.ofOctets_octets`**: addresses round trip through their octets;
* `isLoopback`, `isPrivate`, `isLinkLocal`, `isBroadcast`, `isDocumentation`, `toIpv4`.
-/

set_option autoImplicit false

namespace RXCore

/-- `std::net::Ipv4Addr`. -/
structure Ipv4Addr where
  octets : Vector UInt8 4
deriving DecidableEq

/-- `std::net::Ipv6Addr`. -/
structure Ipv6Addr where
  segments : Vector UInt16 8
deriving DecidableEq

/-- `std::net::IpAddr`. -/
inductive IpAddr where
  | v4 (addr : Ipv4Addr)
  | v6 (addr : Ipv6Addr)
deriving DecidableEq

/-- `std::net::SocketAddr`. -/
structure SocketAddr where
  ip : IpAddr
  port : UInt16
deriving DecidableEq

namespace Ipv4Addr

/-- `Ipv4Addr::new`. -/
def new (a b c d : UInt8) : Ipv4Addr := ⟨#v[a, b, c, d]⟩

/-- The address with the first four bytes of a list. -/
def ofOctets (bs : List UInt8) : Ipv4Addr := new (bs.getD 0 0) (bs.getD 1 0) (bs.getD 2 0) (bs.getD 3 0)

/-- `Ipv4Addr::UNSPECIFIED`. -/
def unspecified : Ipv4Addr := new 0 0 0 0

/-- `Ipv4Addr::LOCALHOST`. -/
def localhost : Ipv4Addr := new 127 0 0 1

def isLoopback (a : Ipv4Addr) : Bool := a.octets[0] == 127

def isPrivate (a : Ipv4Addr) : Bool :=
  a.octets[0] == 10 || (a.octets[0] == 172 && 16 ≤ a.octets[1].toNat && a.octets[1].toNat ≤ 31) ||
    (a.octets[0] == 192 && a.octets[1] == 168)

def isLinkLocal (a : Ipv4Addr) : Bool := a.octets[0] == 169 && a.octets[1] == 254

def isBroadcast (a : Ipv4Addr) : Bool := a == new 255 255 255 255

def isDocumentation (a : Ipv4Addr) : Bool :=
  (a.octets[0] == 192 && a.octets[1] == 0 && a.octets[2] == 2) ||
    (a.octets[0] == 198 && a.octets[1] == 51 && a.octets[2] == 100) ||
      (a.octets[0] == 203 && a.octets[1] == 0 && a.octets[2] == 113)

def display (a : Ipv4Addr) : String :=
  String.intercalate "." (a.octets.toList.map fun o => toString o.toNat)

/-- The address as a 32-bit number, big endian. -/
def toNat (a : Ipv4Addr) : ℕ := a.octets.toList.foldl (fun n o => n * 256 + o.toNat) 0

end Ipv4Addr

namespace Ipv6Addr

/-- `Ipv6Addr::UNSPECIFIED`. -/
def unspecified : Ipv6Addr := ⟨Vector.replicate 8 0⟩

/-- `Ipv6Addr::LOCALHOST`. -/
def localhost : Ipv6Addr := ⟨#v[0, 0, 0, 0, 0, 0, 0, 1]⟩

def isUnspecified (a : Ipv6Addr) : Bool := a == unspecified

def isLoopback (a : Ipv6Addr) : Bool := a == ⟨#v[0, 0, 0, 0, 0, 0, 0, 1]⟩

/-- The two octets of a group. -/
def groupOctets (g : UInt16) : List UInt8 := [(g >>> 8).toUInt8, g.toUInt8]

def octets (a : Ipv6Addr) : List UInt8 := a.segments.toList.flatMap groupOctets

def ofOctets (bs : List UInt8) : Ipv6Addr :=
  ⟨Vector.ofFn fun i : Fin 8 =>
    ((bs.getD (2 * i) 0).toUInt16 <<< 8) ||| (bs.getD (2 * i + 1) 0).toUInt16⟩

/-- `Ipv6Addr::to_ipv4`: the IPv4-compatible and the IPv4-mapped addresses. -/
def toIpv4 (a : Ipv6Addr) : Option Ipv4Addr :=
  if a.segments.toList.take 5 = [0, 0, 0, 0, 0] ∧ (a.segments[5] = 0 ∨ a.segments[5] = 0xffff) then
    some (Ipv4Addr.new (a.segments[6] >>> 8).toUInt8 a.segments[6].toUInt8
      (a.segments[7] >>> 8).toUInt8 a.segments[7].toUInt8)
  else none

/-- `Ipv6Addr::to_ipv4_mapped`. -/
def toIpv4Mapped (a : Ipv6Addr) : Option Ipv4Addr := if a.segments[5] = 0xffff then a.toIpv4 else none

/-- The first of the longest runs of zero groups from index `i` on: its start and its length. -/
def longestZeros : ℕ → ℕ × ℕ → ℕ × ℕ → List UInt16 → ℕ × ℕ
  | _, _, longest, [] => longest
  | i, current, longest, g :: gs =>
    if g = 0 then
      let current := if current.2 = 0 then (i, 1) else (current.1, current.2 + 1)
      longestZeros (i + 1) current (if longest.2 < current.2 then current else longest) gs
    else longestZeros (i + 1) (0, 0) longest gs

def displayGroups (gs : List UInt16) : String :=
  String.intercalate ":" (gs.map fun g => String.ofList (Nat.toDigits 16 g.toNat))

def display (a : Ipv6Addr) : String :=
  match a.toIpv4Mapped with
  | some v4 => "::ffff:" ++ v4.display
  | none =>
    let gs := a.segments.toList
    let (start, len) := longestZeros 0 (0, 0) (0, 0) gs
    if 1 < len then displayGroups (gs.take start) ++ "::" ++ displayGroups (gs.drop (start + len))
    else displayGroups gs

end Ipv6Addr

namespace IpAddr

def isIpv4 : IpAddr → Bool
  | v4 _ => true
  | v6 _ => false

def isIpv6 (a : IpAddr) : Bool := !a.isIpv4

def isLoopback : IpAddr → Bool
  | v4 a => a.isLoopback
  | v6 a => a.isLoopback

def display : IpAddr → String
  | v4 a => a.display
  | v6 a => a.display

end IpAddr

/-! ## Reading an address -/

/-- `char::to_digit`. -/
def toDigit (radix : ℕ) (c : Char) : Option ℕ :=
  let n := c.toNat
  let d := if 48 ≤ n ∧ n ≤ 57 then n - 48
    else if 97 ≤ n ∧ n ≤ 122 then n - 87
    else if 65 ≤ n ∧ n ≤ 90 then n - 55
    else radix
  if d < radix then some d else none

/-- `Parser::read_number`: all digits there are, at most `maxDigits` of them, no more than `max`. -/
def readNumber (radix maxDigits max : ℕ) (allowZeroPrefix : Bool) (s : List Char) :
    Option (ℕ × List Char) :=
  let ds := s.takeWhile fun c => (toDigit radix c).isSome
  let value := ds.foldl (fun n c => n * radix + (toDigit radix c).getD 0) 0
  if ds = [] ∨ maxDigits < ds.length ∨ max < value then none
  else if allowZeroPrefix = false ∧ ds.head? = some '0' ∧ 1 < ds.length then none
  else some (value, s.drop ds.length)

def readGivenChar (c : Char) : List Char → Option (List Char)
  | [] => none
  | d :: s => if d = c then some s else none

/-- `Parser::read_separator`: the separator stands before every item but the first. -/
def readSeparator {α : Type} (sep : Char) (index : ℕ) (inner : List Char → Option (α × List Char))
    (s : List Char) : Option (α × List Char) :=
  if 0 < index then (readGivenChar sep s).bind inner else inner s

def readIpv4Addr (s : List Char) : Option (Ipv4Addr × List Char) := do
  let (a, s) ← readSeparator '.' 0 (readNumber 10 3 255 false) s
  let (b, s) ← readSeparator '.' 1 (readNumber 10 3 255 false) s
  let (c, s) ← readSeparator '.' 2 (readNumber 10 3 255 false) s
  let (d, s) ← readSeparator '.' 3 (readNumber 10 3 255 false) s
  return (Ipv4Addr.new (.ofNat a) (.ofNat b) (.ofNat c) (.ofNat d), s)

/-- The two groups an embedded IPv4 address fills. -/
def ipv4Groups (a : Ipv4Addr) : List UInt16 :=
  [(a.octets[0].toUInt16 <<< 8) ||| a.octets[1].toUInt16,
    (a.octets[2].toUInt16 <<< 8) ||| a.octets[3].toUInt16]

/-- `read_groups` with `left` slots left, the next of them at index `i`: the groups read, whether an
IPv4 address ended them, and the rest of the input. -/
def readGroups : ℕ → ℕ → List Char → List UInt16 × Bool × List Char
  | 0, _, s => ([], false, s)
  | left + 1, i, s =>
    -- an embedded IPv4 address needs two slots
    match if 0 < left then readSeparator ':' i readIpv4Addr s else none with
    | some (a, s) => (ipv4Groups a, true, s)
    | none => match readSeparator ':' i (readNumber 16 4 65535 true) s with
      | none => ([], false, s)
      | some (g, s) =>
        let (gs, ipv4, s) := readGroups left (i + 1) s
        (.ofNat g :: gs, ipv4, s)

def readIpv6Addr (s : List Char) : Option (Ipv6Addr × List Char) :=
  let (head, headIpv4, s) := readGroups 8 0 s
  if head.length = 8 then some (⟨Vector.ofFn fun i : Fin 8 => head.getD i 0⟩, s)
  else if headIpv4 then none
  else do
    let s ← readGivenChar ':' s
    let s ← readGivenChar ':' s
    let (tail, _, s) := readGroups (7 - head.length) 0 s
    let gs := head ++ List.replicate (8 - head.length - tail.length) 0 ++ tail
    return (⟨Vector.ofFn fun i : Fin 8 => gs.getD i 0⟩, s)

/-- `str::parse::<IpAddr>`: an IPv4 address or else an IPv6 address, and nothing after it. -/
def parseIpAddr (s : String) : Option IpAddr :=
  let parsed := match readIpv4Addr s.toList with
    | some (a, r) => some (IpAddr.v4 a, r)
    | none => (readIpv6Addr s.toList).map fun (a, r) => (IpAddr.v6 a, r)
  match parsed with
  | some (a, []) => some a
  | _ => none

/-- `Parser::read_port`, which allows any number of digits. -/
def readPort (s : List Char) : Option (UInt16 × List Char) := do
  let s ← readGivenChar ':' s
  let (port, s) ← readNumber 10 s.length 65535 true s
  return (.ofNat port, s)

/-- `Parser::read_scope_id`, which is left out of the address here. -/
def readScopeId (s : List Char) : Option (ℕ × List Char) :=
  (readGivenChar '%' s).bind fun s => readNumber 10 s.length 4294967295 true s

def readSocketAddrV4 (s : List Char) : Option (SocketAddr × List Char) := do
  let (ip, s) ← readIpv4Addr s
  let (port, s) ← readPort s
  return (⟨.v4 ip, port⟩, s)

def readSocketAddrV6 (s : List Char) : Option (SocketAddr × List Char) := do
  let s ← readGivenChar '[' s
  let (ip, s) ← readIpv6Addr s
  let s := match readScopeId s with
    | some (_, rest) => rest
    | none => s
  let s ← readGivenChar ']' s
  let (port, s) ← readPort s
  return (⟨.v6 ip, port⟩, s)

/-- `str::parse::<SocketAddr>`. -/
def parseSocketAddr (s : String) : Option SocketAddr :=
  match (readSocketAddrV4 s.toList).or (readSocketAddrV6 s.toList) with
  | some (a, []) => some a
  | _ => none

/-- `str::parse` to an unsigned integer: an optional plus sign and decimal digits. -/
def parseUnsigned (max : ℕ) (s : String) : Option ℕ :=
  let ds := match s.toList with
    | '+' :: r => r
    | r => r
  let value := ds.foldl (fun n c => n * 10 + (toDigit 10 c).getD 0) 0
  if ds ≠ [] ∧ (ds.all fun c => (toDigit 10 c).isSome) ∧ value ≤ max then some value else none

/-- `str::parse::<u16>`. -/
def parseU16 (s : String) : Option UInt16 := (parseUnsigned 65535 s).map .ofNat

/-! ## Addresses and their octets -/

/-- An IPv4 address is made of its octets. -/
@[simp] theorem Ipv4Addr.ofOctets_octets (a : Ipv4Addr) : Ipv4Addr.ofOctets a.octets.toList = a := by
  obtain ⟨⟨⟨l⟩, hl⟩⟩ := a
  match l, hl with
  | [_, _, _, _], _ => rfl

/-- A group is made of its octets. -/
theorem Ipv6Addr.ofGroup (g : UInt16) : ((g >>> 8).toUInt8.toUInt16 <<< 8) ||| g.toUInt8.toUInt16 = g := by
  apply UInt16.toNat_inj.mp
  have hg := g.toNat_lt
  have hor := Nat.shiftLeft_add_eq_or_of_lt (show g.toNat % 256 < 2 ^ 8 by omega) (g.toNat / 256)
  rw [Nat.shiftLeft_eq] at hor
  simp only [UInt16.toNat_or, UInt16.toNat_shiftLeft, UInt8.toNat_toUInt16, UInt16.toNat_toUInt8,
    UInt16.toNat_shiftRight, Nat.shiftRight_eq_div_pow, Nat.shiftLeft_eq]
  simp only [UInt16.toNat_ofNat, Nat.reducePow, Nat.reduceMod]
  rw [Nat.mod_eq_of_lt (show g.toNat / 256 < 256 by omega),
    Nat.mod_eq_of_lt (show g.toNat / 256 * 256 < 65536 by omega), ← hor]
  omega

@[simp] theorem Ipv6Addr.octets_length (a : Ipv6Addr) : a.octets.length = 16 := by
  simp [octets, groupOctets]

/-- An IPv6 address is made of its octets. -/
@[simp] theorem Ipv6Addr.ofOctets_octets (a : Ipv6Addr) : Ipv6Addr.ofOctets a.octets = a := by
  obtain ⟨⟨⟨l⟩, hl⟩⟩ := a
  match l, hl with
  | [a, b, c, d, e, f, g, h], _ =>
    refine congrArg Ipv6Addr.mk (Vector.ext fun i hi => ?_)
    rw [Vector.getElem_ofFn]
    interval_cases i <;> exact ofGroup _

theorem Ipv4Addr.octets_ofOctets {bs : List UInt8} (h : bs.length = 4) :
    (Ipv4Addr.ofOctets bs).octets.toList = bs := by
  match bs, h with
  | [_, _, _, _], _ => rfl

/-- Two octets make a group. -/
theorem Ipv6Addr.groupOctets_ofGroup (a b : UInt8) : groupOctets ((a.toUInt16 <<< 8) ||| b.toUInt16) = [a, b] := by
  have ha := a.toNat_lt
  have hb := b.toNat_lt
  have hor := Nat.shiftLeft_add_eq_or_of_lt (show b.toNat < 2 ^ 8 by omega) a.toNat
  rw [Nat.shiftLeft_eq] at hor
  have hn : ((a.toUInt16 <<< 8) ||| b.toUInt16).toNat = a.toNat * 256 + b.toNat := by
    simp only [UInt16.toNat_or, UInt16.toNat_shiftLeft, UInt8.toNat_toUInt16, Nat.shiftLeft_eq]
    simp only [UInt16.toNat_ofNat, Nat.reducePow, Nat.reduceMod]
    rw [Nat.mod_eq_of_lt (show a.toNat * 256 < 65536 by omega), ← hor]
  simp only [groupOctets, List.cons.injEq, and_true]
  constructor
  · apply UInt8.toNat_inj.mp
    simp only [UInt16.toNat_toUInt8, UInt16.toNat_shiftRight, hn, Nat.shiftRight_eq_div_pow]
    simp only [UInt16.toNat_ofNat, Nat.reducePow, Nat.reduceMod]
    omega
  · apply UInt8.toNat_inj.mp
    simp only [UInt16.toNat_toUInt8, hn]
    omega

theorem Ipv6Addr.octets_ofOctets {bs : List UInt8} (h : bs.length = 16) : (Ipv6Addr.ofOctets bs).octets = bs := by
  match bs, h with
  | [a, b, c, d, e, f, g, h, i, j, k, l, m, n, o, p], _ =>
    have hoctets : (Ipv6Addr.ofOctets [a, b, c, d, e, f, g, h, i, j, k, l, m, n, o, p]).octets =
        groupOctets ((a.toUInt16 <<< 8) ||| b.toUInt16) ++ groupOctets ((c.toUInt16 <<< 8) ||| d.toUInt16) ++
        groupOctets ((e.toUInt16 <<< 8) ||| f.toUInt16) ++ groupOctets ((g.toUInt16 <<< 8) ||| h.toUInt16) ++
        groupOctets ((i.toUInt16 <<< 8) ||| j.toUInt16) ++ groupOctets ((k.toUInt16 <<< 8) ||| l.toUInt16) ++
        groupOctets ((m.toUInt16 <<< 8) ||| n.toUInt16) ++ groupOctets ((o.toUInt16 <<< 8) ||| p.toUInt16) := rfl
    simp [hoctets, groupOctets_ofGroup]

example : parseIpAddr "8.8.8.8" = some (.v4 (.new 8 8 8 8)) := by decide
example : parseIpAddr "::ffff:10.0.0.1" = some (.v6 ⟨#v[0, 0, 0, 0, 0, 0xffff, 0x0a00, 1]⟩) := by
  decide
example : parseSocketAddr "[::1]:443" = some ⟨.v6 ⟨#v[0, 0, 0, 0, 0, 0, 0, 1]⟩, 443⟩ := by decide
example : (IpAddr.v6 ⟨#v[0xfe80, 0, 0, 1, 0, 0, 0, 1]⟩).display = "fe80:0:0:1::1" := by decide

end RXCore
