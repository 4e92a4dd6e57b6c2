import Mathlib
import Roze.Http.HeaderMap
import Roze.Library.Text

/-!
# Client addresses behind trusted proxies

The address of a client is taken from the TCP peer and, when the peer is trusted, from the
`X-Forwarded-For` chain, walked from the right over the trusted proxies. Each proxy adds
the address it accepted from at the right end, to the last field line or on a line of its
own; what stands to the left of the first untrusted address is the client's own text.

The parsers of addresses are a parameter.
-/

namespace Roze.Http

open HeaderValue

open Roze.Library List

/-! ## Addresses -/

inductive IpAddr where
  | v4 (address : BitVec 32)
  | v6 (address : BitVec 128)
deriving DecidableEq, Repr

structure SocketAddr where
  ip : IpAddr
  port : UInt16
deriving DecidableEq, Repr

/-- An IPv6 address that stands for an IPv4 address becomes that address. -/
def normalizeIp : IpAddr → IpAddr
  | .v6 address => if address >>> 32 = 0xFFFF then .v4 (address.setWidth 32) else .v6 address
  | .v4 address => .v4 address

/-- A block of addresses with the same leading bits. -/
structure Cidr (width : Nat) where
  address : BitVec width
  prefixLen : Nat
  bounded : prefixLen ≤ width

namespace Cidr

variable {width : Nat} (block : Cidr width)

def hostmask : BitVec width := BitVec.allOnes width >>> block.prefixLen

def network : BitVec width := block.address &&& ~~~ block.hostmask

def broadcast : BitVec width := block.address ||| block.hostmask

def contains (address : BitVec width) : Bool :=
  decide (block.network ≤ address) && decide (address ≤ block.broadcast)

end Cidr

inductive IpNet where
  | v4 (block : Cidr 32)
  | v6 (block : Cidr 128)

/-- A block holds addresses of its own version only. -/
def IpNet.contains : IpNet → IpAddr → Bool
  | .v4 block, .v4 address => block.contains address
  | .v6 block, .v6 address => block.contains address
  | _, _ => false

/-! ## The chain of one field line -/

/-- The standard parsers of addresses and of addresses with a port. -/
structure AddressParsers where
  parseIp : String → Option IpAddr
  parseSocket : String → Option SocketAddr

namespace AddressParsers

variable (parsers : AddressParsers)

/-- The text between an opening bracket at the start and the first closing bracket. -/
def bracketed (value : String) : Option String :=
  match value.toList with
  | '[' :: rest =>
    if rest.contains ']' then some (String.ofList (rest.takeWhile (· != ']'))) else none
  | _ => none

def parseForwardedIp (value : String) : Option IpAddr :=
  if value.isEmpty || toAsciiLowercase value == "unknown" then none
  else
    let value := trimMatches '"' value
    match parsers.parseIp value with
    | some address => some (normalizeIp address)
    | none =>
      match parsers.parseSocket value with
      | some address => some (normalizeIp address.ip)
      | none => ((bracketed value).bind parsers.parseIp).map normalizeIp

/-- The addresses of a list; every entry has to parse. -/
def parseForwardedChain (value : String) : Option (List IpAddr) :=
  (splitParts ',' value).mapM (fun part => parsers.parseForwardedIp (trim part))

/-- The chain of a field value. -/
def chainOf (value : HeaderValue) : Option (List IpAddr) :=
  value.toStr.bind parsers.parseForwardedChain

end AddressParsers

open AddressParsers

/-! ## Resolution -/

structure TrustedProxyConfig where
  networks : List IpNet

structure ClientIp where
  address : IpAddr
deriving DecidableEq, Repr

namespace TrustedProxyConfig

variable (config : TrustedProxyConfig) (parsers : AddressParsers)

def isTrusted (address : IpAddr) : Bool :=
  config.networks.any (fun network => network.contains address)

/-- The loop over the chain from its right end: it stops at the first untrusted address. -/
def walk (selected : IpAddr) : List IpAddr → IpAddr
  | [] => selected
  | address :: rest => if !config.isTrusted address then address else walk address rest

def resolve (peer : SocketAddr) (headers : HeaderMap) : ClientIp :=
  let peerIp := normalizeIp peer.ip
  if !config.isTrusted peerIp then ⟨peerIp⟩
  else
    match headers.get "x-forwarded-for" with
    | none => ⟨peerIp⟩
    | some value =>
      match value.toStr with
      | none => ⟨peerIp⟩
      | some value =>
        match parsers.parseForwardedChain value with
        | none => ⟨peerIp⟩
        | some chain =>
          if chain.isEmpty then ⟨peerIp⟩
          else ⟨config.walk peerIp (chain ++ [peerIp]).reverse⟩

/-! ## The address that a complete chain means -/

/-- The last address of a list that is not trusted. -/
def rightmostUntrusted (addresses : List IpAddr) : Option IpAddr :=
  (addresses.filter (fun address => !config.isTrusted address)).getLast?

/-- The rightmost untrusted address of a chain and its peer, or else the leftmost address. -/
def clientOf (chain : List IpAddr) (peerIp : IpAddr) : IpAddr :=
  (config.rightmostUntrusted (chain ++ [peerIp])).getD ((chain ++ [peerIp]).headD peerIp)

/-- The chain of all field lines of a request. -/
def completeChain (headers : HeaderMap) : Option (List IpAddr) :=
  match headers.getAll "x-forwarded-for" with
  | [] => some []
  | line :: lines => parsers.chainOf (HeaderValue.join (line :: lines))

/-- The client of a request: that of its complete chain, and the peer when this does not
parse. -/
def intendedClient (peer : SocketAddr) (headers : HeaderMap) : ClientIp :=
  match completeChain parsers headers with
  | none => ⟨normalizeIp peer.ip⟩
  | some chain => ⟨config.clientOf chain (normalizeIp peer.ip)⟩

/-! ## The first field line against the complete chain -/

/-- The loop finds the first untrusted address, or ends at the last one. -/
theorem walk_eq (selected : IpAddr) (addresses : List IpAddr) :
    config.walk selected addresses =
      (addresses.find? (fun address => !config.isTrusted address)).getD
        (addresses.getLastD selected) := by
  induction addresses generalizing selected with
  | nil => rfl
  | cons =>
    simp only [walk, find?_cons, getLastD_cons]
    split <;> simp_all

/-- Walking a chain from its right end gives the client of the chain. -/
theorem walk_reverse (chain : List IpAddr) (peerIp : IpAddr) :
    config.walk peerIp (chain ++ [peerIp]).reverse = config.clientOf chain peerIp := by
  rw [walk_eq, clientOf, rightmostUntrusted, ← head?_filter, filter_reverse,
    head?_reverse, getLastD_eq_getLast?, getLast?_reverse, headD_eq_head?_getD]

variable {config} {parsers}

theorem rightmostUntrusted_append (front back : List IpAddr) :
    config.rightmostUntrusted (front ++ back) =
      (config.rightmostUntrusted back).or (config.rightmostUntrusted front) := by
  simp only [rightmostUntrusted, filter_append, getLast?_append]

theorem rightmostUntrusted_eq_none {addresses : List IpAddr} :
    config.rightmostUntrusted addresses = none ↔
      ∀ address ∈ addresses, config.isTrusted address = true := by
  simp [rightmostUntrusted]

theorem rightmostUntrusted_untrusted {addresses : List IpAddr} {found : IpAddr}
    (last : config.rightmostUntrusted addresses = some found) : config.isTrusted found = false := by
  have member := mem_filter.mp (mem_of_getLast? last)
  simpa using member.2

variable {peerIp : IpAddr}

/-- A trusted peer is selected only as the leftmost address. -/
theorem clientOf_eq (trusted : config.isTrusted peerIp = true) (chain : List IpAddr) :
    config.clientOf chain peerIp =
      (config.rightmostUntrusted chain).getD (chain.headD peerIp) := by
  have peerAlone : config.rightmostUntrusted [peerIp] = none := by
    rw [rightmostUntrusted_eq_none]
    simpa using trusted
  rw [clientOf, rightmostUntrusted_append, peerAlone, Option.none_or]
  cases chain <;> rfl

variable {chain : List IpAddr}

/-- A text has at least one entry. -/
theorem chainOf_ne_nil {value : HeaderValue} (parsed : parsers.chainOf value = some chain) :
    chain ≠ [] := by
  obtain ⟨text, _, entries⟩ := Option.bind_eq_some_iff.mp parsed
  obtain ⟨_, _, split⟩ := exists_cons_of_ne_nil (splitParts_ne_nil ',' text)
  rintro rfl
  simp [parseForwardedChain, split, Option.bind_eq_some_iff] at entries

/-- The chain of two values joined by a comma is that of the first and then that of the
second. -/
theorem chainOf_append (front back : List UInt8) :
    parsers.chainOf ⟨front ++ 44 :: back⟩ = (do
      let chain ← parsers.chainOf ⟨front⟩
      let more ← parsers.chainOf ⟨back⟩
      return chain ++ more) := by
  have comma : visibleAscii 44 = true := by decide
  simp only [chainOf, toStr, all_append, all_cons, comma,
    Bool.true_and]
  by_cases first : front.all visibleAscii = true
  · by_cases second : back.all visibleAscii = true
    · have split := splitParts_append ',' (front.map (fun byte => Char.ofNat byte.toNat))
        (back.map (fun byte => Char.ofNat byte.toNat))
      have char : Char.ofNat (44 : UInt8).toNat = ',' := by decide
      simp only [first, second, Bool.and_self, if_true, Option.bind_some,
        parseForwardedChain, map_append, map_cons, char, split,
        mapM_append]
    · simp [first, second]
  · simp [first]

/-- The joined lines have the chains of the lines, one after another. -/
theorem chainOf_join (line : HeaderValue) (lines : List HeaderValue) :
    parsers.chainOf (HeaderValue.join (line :: lines)) =
      ((line :: lines).mapM parsers.chainOf).map List.flatten := by
  induction lines generalizing line with
  | nil => simp [join]
  | cons next rest ih =>
    have joined : join (line :: next :: rest) =
        ⟨line.bytes ++ 44 :: (join (next :: rest)).bytes⟩ := by
      simp [join]
    have one : (line :: next :: rest).mapM parsers.chainOf = (do
        let chain ← parsers.chainOf line
        let chains ← (next :: rest).mapM parsers.chainOf
        return chain :: chains) := mapM_cons
    rw [joined, chainOf_append, ih, one]
    cases parsers.chainOf line with
    | none => rfl
    | some => cases (next :: rest).mapM parsers.chainOf <;> rfl

theorem completeChain_eq (headers : HeaderMap) :
    completeChain parsers headers =
      ((headers.getAll "x-forwarded-for").mapM parsers.chainOf).map List.flatten := by
  rw [completeChain]
  split
  · simp_all
  · rename_i some
    rw [some, chainOf_join]

/-- With a trusted peer, the code resolves to the client of the first field line. -/
theorem resolve_eq {peer : SocketAddr} (headers : HeaderMap)
    (trusted : config.isTrusted (normalizeIp peer.ip) = true) :
    config.resolve parsers peer headers =
      match headers.getAll "x-forwarded-for" with
      | [] => ⟨normalizeIp peer.ip⟩
      | line :: _ =>
        match parsers.chainOf line with
        | none => ⟨normalizeIp peer.ip⟩
        | some chain => ⟨config.clientOf chain (normalizeIp peer.ip)⟩ := by
  rw [resolve, if_neg (by simp [trusted]), HeaderMap.get]
  cases headers.getAll "x-forwarded-for" with
  | nil => rfl
  | cons line =>
    simp only [head?_cons]
    cases visible : line.toStr with
    | none => simp only [chainOf, visible, Option.bind_none]
    | some text =>
      have parsed : parsers.chainOf line = parsers.parseForwardedChain text := by
        rw [chainOf, visible, Option.bind_some]
      simp only [parsed]
      cases entries : parsers.parseForwardedChain text with
      | none => rfl
      | some chain =>
        have nonempty : chain ≠ [] := chainOf_ne_nil (parsed.trans entries)
        simp only [walk_reverse, List.isEmpty_iff, if_neg nonempty]

variable (config) (parsers)

/-- When the first field line has the client of the complete chain: it does not parse; or
all addresses of the further lines are trusted; or the rightmost untrusted address of the
further lines is that of the first line too; or the further lines do not parse, and the
first line has trusted addresses only and begins with the peer. -/
def FirstLineDecides (peer : SocketAddr) (headers : HeaderMap) : Prop :=
  match headers.getAll "x-forwarded-for" with
  | [] => True
  | line :: lines =>
    match parsers.chainOf line, lines.mapM parsers.chainOf with
    | none, _ => True
    | some chain, some further =>
      (∀ address ∈ further.flatten, config.isTrusted address = true) ∨
        config.rightmostUntrusted further.flatten = config.rightmostUntrusted chain
    | some chain, none =>
      (∀ address ∈ chain, config.isTrusted address = true) ∧
        chain.head? = some (normalizeIp peer.ip)

/-- Two chains agree from their rightmost untrusted address on. -/
def AgreeFromUntrusted (chain other : List IpAddr) : Prop :=
  ∃ front front' client back, chain = front ++ client :: back ∧ other = front' ++ client :: back ∧
    config.isTrusted client = false ∧ ∀ address ∈ back, config.isTrusted address = true

variable {config} {parsers}

/-- Further lines keep the client exactly when they have trusted addresses only, or the
first line has their rightmost untrusted address as its own. -/
theorem clientOf_append_iff (trusted : config.isTrusted peerIp = true) (nonempty : chain ≠ [])
    (further : List IpAddr) :
    config.clientOf chain peerIp = config.clientOf (chain ++ further) peerIp ↔
      (∀ address ∈ further, config.isTrusted address = true) ∨
        config.rightmostUntrusted further = config.rightmostUntrusted chain := by
  obtain ⟨leftmost, rest, rfl⟩ := exists_cons_of_ne_nil nonempty
  rw [clientOf_eq trusted, clientOf_eq trusted, rightmostUntrusted_append,
    ← rightmostUntrusted_eq_none]
  cases last : config.rightmostUntrusted further with
  | none => simp
  | some client =>
    have untrusted := rightmostUntrusted_untrusted last
    cases own : config.rightmostUntrusted (leftmost :: rest) with
    | some => simp [eq_comm]
    | none =>
      -- all of the first line is trusted, so its client is not the untrusted one
      have allTrusted := rightmostUntrusted_eq_none.mp own leftmost mem_cons_self
      grind

/-- The peer is the client of a chain exactly when the addresses are trusted and the peer is
the leftmost. -/
theorem clientOf_eq_peer_iff (trusted : config.isTrusted peerIp = true) (nonempty : chain ≠ []) :
    config.clientOf chain peerIp = peerIp ↔
      (∀ address ∈ chain, config.isTrusted address = true) ∧ chain.head? = some peerIp := by
  obtain ⟨leftmost, rest, rfl⟩ := exists_cons_of_ne_nil nonempty
  rw [clientOf_eq trusted, ← rightmostUntrusted_eq_none]
  cases last : config.rightmostUntrusted (leftmost :: rest) with
  | none => simp
  | some client =>
    have untrusted := rightmostUntrusted_untrusted last
    grind

theorem resolve_eq_intended_iff {peer : SocketAddr} (headers : HeaderMap)
    (trusted : config.isTrusted (normalizeIp peer.ip) = true) :
    config.resolve parsers peer headers = config.intendedClient parsers peer headers ↔
      FirstLineDecides config parsers peer headers := by
  have noChain : config.clientOf [] (normalizeIp peer.ip) = normalizeIp peer.ip := by
    rw [clientOf_eq trusted]
    rfl
  rw [resolve_eq headers trusted, intendedClient, completeChain_eq, FirstLineDecides]
  cases headers.getAll "x-forwarded-for" with
  | nil => simp [noChain]
  | cons line lines =>
    simp only [mapM_cons]
    cases first : parsers.chainOf line with
    | none => simp
    | some =>
      have nonempty := chainOf_ne_nil first
      cases lines.mapM parsers.chainOf with
      | none => simpa using clientOf_eq_peer_iff trusted nonempty
      | some further => simpa using clientOf_append_iff trusted nonempty further.flatten

theorem clientOf_untrusted {client : IpAddr} (untrusted : config.isTrusted client = false)
    {back : List IpAddr} (proxies : ∀ address ∈ back, config.isTrusted address = true)
    (trusted : config.isTrusted peerIp = true) (front : List IpAddr) :
    config.clientOf (front ++ client :: back) peerIp = client := by
  have alone : config.rightmostUntrusted [client] = some client := by
    simp [rightmostUntrusted, untrusted]
  have split : front ++ client :: back = front ++ ([client] ++ back) := rfl
  rw [clientOf_eq trusted, split, rightmostUntrusted_append, rightmostUntrusted_append,
    rightmostUntrusted_eq_none.mpr proxies, alone]
  rfl

variable (config) (parsers)

/-- With a trusted peer, the code finds the client of the complete chain exactly when the
first field line decides it. Where that line does, requests whose chains agree from the
rightmost untrusted address on have the same client. -/
theorem resolve_complete_iff :
    (∀ peer headers, config.isTrusted (normalizeIp peer.ip) = true →
      (config.resolve parsers peer headers = config.intendedClient parsers peer headers ↔
        FirstLineDecides config parsers peer headers)) ∧
    ∀ peer headers peer' headers' chain chain',
      config.isTrusted (normalizeIp peer.ip) = true →
      config.isTrusted (normalizeIp peer'.ip) = true →
      FirstLineDecides config parsers peer headers →
      FirstLineDecides config parsers peer' headers' →
      completeChain parsers headers = some chain →
      completeChain parsers headers' = some chain' →
      AgreeFromUntrusted config chain chain' →
      config.resolve parsers peer headers = config.resolve parsers peer' headers' := by
  refine ⟨fun peer headers trusted => resolve_eq_intended_iff headers trusted, ?_⟩
  rintro _ headers _ headers' _ _ trusted trusted' decides decides' complete
    complete' ⟨front, front', client, back, rfl, rfl, untrusted, proxies⟩
  rw [(resolve_eq_intended_iff headers trusted).mpr decides,
    (resolve_eq_intended_iff headers' trusted').mpr decides']
  simp only [intendedClient, complete, complete', clientOf_untrusted untrusted proxies trusted,
    clientOf_untrusted untrusted proxies trusted']

/-- One field line is the complete chain. -/
theorem firstLineDecides_of_single (peer : SocketAddr) {headers : HeaderMap}
    (single : (headers.getAll "x-forwarded-for").length ≤ 1) :
    FirstLineDecides config parsers peer headers := by
  rw [FirstLineDecides]
  match lines : headers.getAll "x-forwarded-for" with
  | [] => trivial
  | [line] => grind
  | _ :: _ :: _ => simp [lines] at single

/-! ## Two requests through one proxy -/

def decimal (limit : Nat) (text : String) : Option Nat :=
  let value := text.toList.foldl (fun value digit => value * 10 + (digit.toNat - 48)) 0
  if !text.isEmpty && text.toList.all Char.isDigit && value ≤ limit then some value else none

def octet (text : String) : Option Nat :=
  if text.length ≤ 1 || text.toList.head? != some '0' then decimal 255 text else none

def ipv4 (first second third fourth : Nat) : IpAddr :=
  .v4 (BitVec.ofNat 32 (((first * 256 + second) * 256 + third) * 256 + fourth))

/-- The parsers, for dotted addresses only. -/
def dottedParsers : AddressParsers where
  parseIp := dotted
  parseSocket text :=
    match splitParts ':' text with
    | [ip, port] => do
      let ip ← dotted ip
      let port ← decimal 65535 port
      return ⟨ip, port.toUInt16⟩
    | _ => none
where
  dotted (text : String) : Option IpAddr :=
    match (splitParts '.' text).mapM octet with
    | some [first, second, third, fourth] => some (ipv4 first second third fourth)
    | _ => none

/-- Proxies in `10.0.0.0/8`. -/
def privateProxies : TrustedProxyConfig := ⟨[.v4 ⟨0x0A000000#32, 8, by decide⟩]⟩

def proxyPeer : SocketAddr := ⟨ipv4 10 0 0 2, 443⟩

def forwarded (lines : List String) : HeaderMap :=
  ⟨lines.map (fun line => ("x-forwarded-for", ⟨line.toList.map (fun ch => ch.toNat.toUInt8)⟩))⟩

/-- A client sends a field line of its own and the proxy adds the address of the client on
a second line: the client is taken to be the address that it made up. Without its line the
client is the address that the proxy saw, though both complete chains end with that. -/
theorem first_line_spoofed :
    privateProxies.isTrusted (normalizeIp proxyPeer.ip) = true ∧
    completeChain dottedParsers (forwarded ["198.51.100.66", "203.0.113.9"]) =
      some [ipv4 198 51 100 66, ipv4 203 0 113 9] ∧
    completeChain dottedParsers (forwarded ["203.0.113.9"]) = some [ipv4 203 0 113 9] ∧
    privateProxies.isTrusted (ipv4 203 0 113 9) = false ∧
    privateProxies.intendedClient dottedParsers proxyPeer
      (forwarded ["198.51.100.66", "203.0.113.9"]) = ⟨ipv4 203 0 113 9⟩ ∧
    privateProxies.resolve dottedParsers proxyPeer
      (forwarded ["198.51.100.66", "203.0.113.9"]) = ⟨ipv4 198 51 100 66⟩ ∧
    privateProxies.resolve dottedParsers proxyPeer (forwarded ["203.0.113.9"]) =
      ⟨ipv4 203 0 113 9⟩ := by
  decide +kernel

/-- On one field line, what the client puts before its address does not matter. -/
theorem resolve_complete_iff_one_line :
    privateProxies.resolve dottedParsers proxyPeer
        (forwarded ["198.51.100.66, 203.0.113.9, 10.1.2.3"]) =
      privateProxies.resolve dottedParsers proxyPeer (forwarded ["203.0.113.9, 10.1.2.3"]) ∧
    privateProxies.resolve dottedParsers proxyPeer
        (forwarded ["198.51.100.66, 203.0.113.9, 10.1.2.3"]) =
      privateProxies.intendedClient dottedParsers proxyPeer
        (forwarded ["198.51.100.66, 203.0.113.9, 10.1.2.3"]) := by
  have decides (line : String) :
      FirstLineDecides privateProxies dottedParsers proxyPeer (forwarded [line]) :=
    firstLineDecides_of_single _ _ _ (by rfl)
  have trusted : privateProxies.isTrusted (normalizeIp proxyPeer.ip) = true := by decide +kernel
  constructor
  · refine (resolve_complete_iff privateProxies dottedParsers).2 _ _ _ _
      [ipv4 198 51 100 66, ipv4 203 0 113 9, ipv4 10 1 2 3] [ipv4 203 0 113 9, ipv4 10 1 2 3]
      trusted trusted (decides _) (decides _) (by decide +kernel) (by decide +kernel) ?_
    exact ⟨[ipv4 198 51 100 66], [], ipv4 203 0 113 9, [ipv4 10 1 2 3], rfl, rfl,
      by decide +kernel, by decide +kernel⟩
  · exact ((resolve_complete_iff privateProxies dottedParsers).1 _ _ trusted).mpr (decides _)

end TrustedProxyConfig

end Roze.Http
