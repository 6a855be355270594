/-
The egress policy: which destinations an endpoint may name, and which addresses its host may
resolve to.
-/
import NervOS.Python.Value

namespace NervOS

namespace Egress

open Python

/-- A network of `ipaddress`, with the number of the bits below its mask. -/
structure IPNetwork where
  address : Nat
  hostBits : Nat

def IPNetwork.contains (network : IPNetwork) (address : Nat) : Bool :=
  address / 2 ^ network.hostBits = network.address / 2 ^ network.hostBits

def network4 (a b c d bits : Nat) : IPNetwork :=
  ⟨((a * 256 + b) * 256 + c) * 256 + d, 32 - bits⟩

def network6 (hextets : List Nat) (bits : Nat) : IPNetwork :=
  ⟨hextets.foldl (fun address hextet => address * 65536 + hextet) 0 *
    65536 ^ (8 - hextets.length), 128 - bits⟩

def within (networks : List IPNetwork) (address : Nat) : Bool :=
  networks.any (·.contains address)

/-- `_private_networks` and what is excepted from them, in each family. -/
def privateNetworks4 : List IPNetwork :=
  [network4 0 0 0 0 8, network4 10 0 0 0 8, network4 127 0 0 0 8, network4 169 254 0 0 16,
    network4 172 16 0 0 12, network4 192 0 0 0 24, network4 192 0 0 170 31, network4 192 0 2 0 24,
    network4 192 168 0 0 16, network4 198 18 0 0 15, network4 198 51 100 0 24,
    network4 203 0 113 0 24, network4 240 0 0 0 4, network4 255 255 255 255 32]

def exceptedNetworks4 : List IPNetwork :=
  [network4 192 0 0 9 32, network4 192 0 0 10 32]

def sixToFour : IPNetwork := network6 [0x2002] 16

def privateNetworks6 : List IPNetwork :=
  [network6 [0, 0, 0, 0, 0, 0, 0, 1] 128, network6 [0] 128, network6 [0, 0, 0, 0, 0, 0xffff] 96,
    network6 [0x64, 0xff9b, 1] 48, network6 [0x100] 64, network6 [0x2001] 23,
    network6 [0x2001, 0xdb8] 32, sixToFour, network6 [0x3fff] 20, network6 [0xfc00] 7,
    network6 [0xfe80] 10]

def exceptedNetworks6 : List IPNetwork :=
  [network6 [0x2001, 1, 0, 0, 0, 0, 0, 1] 128, network6 [0x2001, 1, 0, 0, 0, 0, 0, 2] 128,
    network6 [0x2001, 3] 32, network6 [0x2001, 4, 0x112] 48, network6 [0x2001, 0x20] 28,
    network6 [0x2001, 0x30] 28]

def reservedNetworks6 : List IPNetwork :=
  [network6 [0] 8, network6 [0x100] 8, network6 [0x200] 7, network6 [0x400] 6, network6 [0x800] 5,
    network6 [0x1000] 4, network6 [0x4000] 3, network6 [0x6000] 3, network6 [0x8000] 3,
    network6 [0xa000] 3, network6 [0xc000] 3, network6 [0xe000] 4, network6 [0xf000] 5,
    network6 [0xf800] 6, network6 [0xfe00] 9]

/-- The zone of an IPv6 address plays no part in its class. -/
inductive IPAddress where
  | v4 (address : BitVec 32)
  | v6 (address : BitVec 128)
deriving DecidableEq

namespace IPAddress

def isLoopback : IPAddress → Bool
  | .v4 address => within [network4 127 0 0 0 8] address.toNat
  | .v6 address => address.toNat = 1

def isPrivate : IPAddress → Bool
  | .v4 address =>
    within privateNetworks4 address.toNat && !within exceptedNetworks4 address.toNat
  | .v6 address =>
    within privateNetworks6 address.toNat && !within exceptedNetworks6 address.toNat

def isLinkLocal : IPAddress → Bool
  | .v4 address => within [network4 169 254 0 0 16] address.toNat
  | .v6 address => within [network6 [0xfe80] 10] address.toNat

def isMulticast : IPAddress → Bool
  | .v4 address => within [network4 224 0 0 0 4] address.toNat
  | .v6 address => within [network6 [0xff00] 8] address.toNat

def isUnspecified : IPAddress → Bool
  | .v4 address => address.toNat = 0
  | .v6 address => address.toNat = 0

def isReserved : IPAddress → Bool
  | .v4 address => within [network4 240 0 0 0 4] address.toNat
  | .v6 address => within reservedNetworks6 address.toNat

def IsMapped (address : BitVec 128) : Prop :=
  address.toNat / 2 ^ 32 = 0xffff

instance : DecidablePred IsMapped := fun _ => inferInstanceAs (Decidable (_ = _))

/-- An address with its `ipv4_mapped` in its place, where it has one. -/
def unwrapped : IPAddress → IPAddress
  | .v4 address => .v4 address
  | .v6 address => if IsMapped address then .v4 (address.setWidth 32) else .v6 address

def nat64 : IPNetwork := network6 [0x64, 0xff9b] 96

/-- The host that a packet to the address reaches: the one that a mapped, a NAT64 or a 6to4
address embeds. -/
def destination : IPAddress → IPAddress
  | .v4 address => .v4 address
  | .v6 address =>
    if IsMapped address ∨ nat64.contains address.toNat then .v4 (address.setWidth 32)
    else if sixToFour.contains address.toNat then .v4 ((address >>> 80).setWidth 32)
    else .v6 address

/-- Shared address space, and the site-local addresses of IPv6. -/
def isShared : IPAddress → Bool
  | .v4 address => within [network4 100 64 0 0 10] address.toNat
  | .v6 address => within [network6 [0xfec0] 10] address.toNat

structure IsGlobalUnicast (address : IPAddress) : Prop where
  notPrivate : address.isPrivate = false
  notMulticast : address.isMulticast = false
  notReserved : address.isReserved = false
  notShared : address.isShared = false

def IsMetadata (address : IPAddress) : Prop :=
  address = .v4 0xa9fea9fe ∨ address = .v6 0xfd000ec2000000000000000000000254

variable {address : IPAddress}

theorem destination_eq (hprivate : address.unwrapped.isPrivate = false)
    (hreserved : address.unwrapped.isReserved = false) :
    address.destination = address.unwrapped := by
  cases address with
  | v4 address => rfl
  | v6 address =>
    simp only [destination, unwrapped] at hprivate hreserved ⊢
    by_cases hmapped : IsMapped address
    · rw [if_pos hmapped, if_pos (Or.inl hmapped)]
    · rw [if_neg hmapped] at hprivate hreserved ⊢
      have hnat64 : ¬ nat64.contains address.toNat = true := by
        intro hin
        have hlow : (network6 [0] 8).contains address.toNat = true := by
          simp [nat64, IPNetwork.contains, network6] at hin ⊢
          omega
        simp [isReserved, within, reservedNetworks6, hlow] at hreserved
      have hsix : ¬ sixToFour.contains address.toNat = true := by
        intro hin
        have hexcepted : within exceptedNetworks6 address.toNat = false := by
          simp [sixToFour, within, exceptedNetworks6, IPNetwork.contains, network6] at hin ⊢
          omega
        have hwithin : within privateNetworks6 address.toNat = true := by
          simp [within, privateNetworks6, hin]
        rw [isPrivate, hwithin, hexcepted] at hprivate
        cases hprivate
      rw [if_neg (not_or.mpr ⟨hmapped, hnat64⟩), if_neg hsix]

theorem not_metadata (hprivate : address.isPrivate = false) : ¬ address.IsMetadata := by
  rintro (rfl | rfl)
  · exact absurd hprivate (by decide)
  · exact absurd hprivate (by decide)

end IPAddress

inductive EgressFailure where
  | mcpConfigurationError (code : String)
  | valueError
  | resolverError

def originRefused : EgressFailure :=
  .mcpConfigurationError "mcp_origin_refused"

/-- What `urlsplit` gives; reading the port of an unusable authority is a `ValueError`. -/
structure SplitResult where
  scheme : Text
  fragment : Text
  username : Option Text
  password : Option Text
  hostname : Option Text
  port : Option (Option Nat)

/-- The functions of the standard library; `none` where they raise `ValueError`. -/
structure StandardLibrary where
  urlsplit : Text → Option SplitResult
  ipAddress : Text → Option IPAddress
  lower : Text → Text

structure Endpoint where
  scheme : Text
  host : Text
  port : Nat

def defaultPort? (scheme : Text) : Option Nat :=
  if scheme = text "https" then some 443 else if scheme = text "http" then some 80 else none

def requiredScheme : Text :=
  text "https"

def forbiddenHostnames : List Text :=
  ["metadata.google.internal", "metadata.goog", "instance-data", "metadata"].map text

def metadataAddresses : List Text :=
  ["169.254.169.254", "fd00:ec2::254"].map text

instance decidableListed (value : Text) (values : List Text) : Decidable (value ∈ values) :=
  decidable_of_iff (∃ listed ∈ values, listed = value) (by simp)

def portSuffix (endpoint : Endpoint) : Text :=
  if defaultPort? endpoint.scheme = some endpoint.port then []
  else text ":" ++ (Nat.toDigits 10 endpoint.port).map Sum.inl

namespace StandardLibrary

variable (lib : StandardLibrary)

/-- `_forbidden_reason` -/
def forbiddenReason (address : Text) : Option String :=
  match lib.ipAddress address with
  | none => some "unparseable"
  | some parsed =>
    let parsed := parsed.unwrapped
    if address ∈ metadataAddresses then some "cloud-metadata"
    else if parsed.isLoopback then some "loopback"
    else if parsed.isPrivate then some "private"
    else if parsed.isLinkLocal then some "link-local"
    else if parsed.isMulticast then some "multicast"
    else if parsed.isUnspecified then some "unspecified"
    else if parsed.isReserved then some "reserved"
    else none

def normalizeOrigin (endpoint : Endpoint) : Text :=
  endpoint.scheme ++ text "://" ++ (lib.lower endpoint.host ++ portSuffix endpoint)

def parseEndpoint (endpoint : Text) : Except EgressFailure Endpoint :=
  match lib.urlsplit endpoint with
  | none => .error .valueError
  | some parts =>
    if defaultPort? parts.scheme = none ∨ parts.fragment ≠ [] ∨ parts.username.isSome ∨
        parts.password.isSome then .error originRefused
    else match parts.hostname, parts.port with
      | some host, some port =>
        if host = [] then .error originRefused
        else .ok ⟨parts.scheme, host, port.getD ((defaultPort? parts.scheme).getD 0)⟩
      | _, _ => .error originRefused

def normalizeAllowlist (origin : Text) : Except EgressFailure Text :=
  (lib.parseEndpoint origin).map lib.normalizeOrigin

/-- The host of one ends like the port of the other, as a host of IPv6 can without its brackets. -/
structure Absorbs (left right : Endpoint) : Prop where
  default : portSuffix left = []
  explicit : portSuffix right ≠ []
  host : lib.lower left.host = lib.lower right.host ++ portSuffix right

/-- The same origin is that of the same scheme, host and effective port, and only that. -/
def Normalizes (endpoint other : Text) : Prop :=
  ∀ left right, lib.parseEndpoint endpoint = .ok left → lib.parseEndpoint other = .ok right →
    (lib.normalizeOrigin left = lib.normalizeOrigin right ↔
      left.scheme = right.scheme ∧ lib.lower left.host = lib.lower right.host ∧
        left.port = right.port)

def Collide (endpoint other : Text) : Prop :=
  ∃ left right, lib.parseEndpoint endpoint = .ok left ∧ lib.parseEndpoint other = .ok right ∧
    left.scheme = right.scheme ∧ (lib.Absorbs left right ∨ lib.Absorbs right left)

/-- What the checks of a host and of its addresses leave out. -/
structure IsClean (parsed : Endpoint) (addresses : List Text) : Prop where
  undotted : ∀ name ∈ forbiddenHostnames, lib.lower parsed.host ≠ name ++ text "."
  unshared : ∀ address ∈ addresses, ∀ ip, lib.ipAddress address = some ip →
    ip.unwrapped.isShared = false

end StandardLibrary

/-- A policy that could be constructed: every entry of the allowlist was normalised. -/
structure StrictEgressPolicy (lib : StandardLibrary) where
  entries : List Text
  allowedOrigins : List Text
  resolve : Text → Nat → Option (List Text)
  accepted : ∀ entry ∈ entries, ∃ origin, lib.normalizeAllowlist entry = .ok origin
  normalized : ∀ origin ∈ allowedOrigins,
    ∃ entry ∈ entries, lib.normalizeAllowlist entry = .ok origin

structure EgressTarget where
  origin : Text
  host : Text
  port : Nat
  addresses : List Text

namespace StrictEgressPolicy

variable {lib : StandardLibrary} (policy : StrictEgressPolicy lib) (endpoint : Text)

def validate : Except EgressFailure EgressTarget :=
  match lib.parseEndpoint endpoint with
  | .error failure => .error failure
  | .ok parsed =>
    if parsed.scheme ≠ requiredScheme then .error originRefused
    else if lib.normalizeOrigin parsed ∉ policy.allowedOrigins then .error originRefused
    else if lib.lower parsed.host ∈ forbiddenHostnames then .error originRefused
    else match policy.resolve parsed.host parsed.port with
      | none => .error .resolverError
      | some addresses =>
        if addresses = [] then .error originRefused
        else if ∃ address ∈ addresses, lib.forbiddenReason address ≠ none then
          .error originRefused
        else .ok ⟨lib.normalizeOrigin parsed, parsed.host, parsed.port, addresses⟩

/-- What a returned target is to be. -/
structure Sound (target : EgressTarget) : Prop where
  absolute : ∃ parts, lib.urlsplit endpoint = some parts ∧ parts.scheme = text "https" ∧
    parts.fragment = [] ∧ parts.username = none ∧ parts.password = none ∧
    parts.hostname = some target.host
  published : lib.normalizeAllowlist endpoint = .ok target.origin ∧
    ∃ entry ∈ policy.entries, lib.normalizeAllowlist entry = .ok target.origin
  named : ∀ name ∈ forbiddenHostnames,
    lib.lower target.host ≠ name ∧ lib.lower target.host ≠ name ++ text "."
  routed : ∀ address ∈ target.addresses, ∃ parsed, lib.ipAddress address = some parsed ∧
    parsed.destination.IsGlobalUnicast ∧ ¬ parsed.destination.IsMetadata

def Meets : Prop :=
  match policy.validate endpoint with
  | .ok target => policy.Sound endpoint target
  | .error failure => ∃ code, failure = .mcpConfigurationError code

/-- The checks before the resolution are passed. -/
structure Asks (parsed : Endpoint) : Prop where
  parses : lib.parseEndpoint endpoint = .ok parsed
  scheme : parsed.scheme = requiredScheme
  allowed : lib.normalizeOrigin parsed ∈ policy.allowedOrigins
  named : lib.lower parsed.host ∉ forbiddenHostnames

def Resolves (parsed : Endpoint) : Prop :=
  ∃ addresses, policy.resolve parsed.host parsed.port = some addresses ∧
    (addresses ≠ [] → (∀ address ∈ addresses, lib.forbiddenReason address = none) →
      lib.IsClean parsed addresses)

structure IsPlain : Prop where
  split : lib.urlsplit endpoint ≠ none
  resolved : ∀ parsed, policy.Asks endpoint parsed → policy.Resolves parsed

end StrictEgressPolicy

section Proofs

variable {lib : StandardLibrary} {endpoint address : Text} {parsed : Endpoint}

theorem routed_iff (hpassed : lib.forbiddenReason address = none) {ip : IPAddress}
    (hip : lib.ipAddress address = some ip) :
    (ip.destination.IsGlobalUnicast ∧ ¬ ip.destination.IsMetadata) ↔
      ip.unwrapped.isShared = false := by
  simp only [StandardLibrary.forbiddenReason, hip] at hpassed
  split_ifs at hpassed with _ _ hprivate _ hmulticast _ hreserved
  rw [Bool.not_eq_true] at hprivate hmulticast hreserved
  rw [IPAddress.destination_eq hprivate hreserved]
  constructor
  · exact fun hrouted => hrouted.1.notShared
  · intro hshared
    exact ⟨⟨hprivate, hmulticast, hreserved, hshared⟩, IPAddress.not_metadata hprivate⟩

theorem exists_ipAddress (hpassed : lib.forbiddenReason address = none) :
    ∃ ip, lib.ipAddress address = some ip := by
  cases hip : lib.ipAddress address with
  | none => simp [StandardLibrary.forbiddenReason, hip] at hpassed
  | some ip => exact ⟨ip, rfl⟩

theorem parseEndpoint_ok (h : lib.parseEndpoint endpoint = .ok parsed) :
    defaultPort? parsed.scheme ≠ none ∧
    ∃ parts, lib.urlsplit endpoint = some parts ∧ parts.scheme = parsed.scheme ∧
      parts.fragment = [] ∧ parts.username = none ∧ parts.password = none ∧
      parts.hostname = some parsed.host := by
  unfold StandardLibrary.parseEndpoint at h
  split at h
  · cases h
  case h_2 parts hparts =>
    split_ifs at h with hparse
    split at h
    case h_1 host port hhost _ =>
      split_ifs at h
      cases h
      simp only [not_or, not_not, Bool.not_eq_true, Option.isSome_eq_false_iff,
        Option.isNone_iff_eq_none] at hparse
      obtain ⟨hscheme, hfragment, huser, hpassword⟩ := hparse
      exact ⟨hscheme, parts, hparts, rfl, hfragment, huser, hpassword, hhost⟩
    case h_2 => cases h

theorem parseEndpoint_error {failure : EgressFailure}
    (h : lib.parseEndpoint endpoint = .error failure) :
    (lib.urlsplit endpoint = none ∧ failure = .valueError) ∨
      (lib.urlsplit endpoint ≠ none ∧ failure = originRefused) := by
  unfold StandardLibrary.parseEndpoint at h
  split at h
  case h_1 hsplit =>
    cases h
    exact Or.inl ⟨hsplit, rfl⟩
  case h_2 parts hsplit =>
    refine Or.inr ⟨by simp [hsplit], ?_⟩
    split_ifs at h
    · cases h
      rfl
    · split at h
      · split_ifs at h
        cases h
        rfl
      · cases h
        rfl

variable {policy : StrictEgressPolicy lib}

theorem validate_of_not_asks (hparsed : lib.parseEndpoint endpoint = .ok parsed)
    (h : ¬ policy.Asks endpoint parsed) : policy.validate endpoint = .error originRefused := by
  rw [StrictEgressPolicy.validate, hparsed]
  dsimp only
  split_ifs with hscheme hallowed hnamed
  · rfl
  · rfl
  · exact absurd ⟨hparsed, not_not.mp hscheme, hallowed, hnamed⟩ h
  · rfl

theorem validate_of_asks (h : policy.Asks endpoint parsed) :
    policy.validate endpoint =
      match policy.resolve parsed.host parsed.port with
      | none => .error .resolverError
      | some addresses =>
        if addresses = [] then .error originRefused
        else if ∃ address ∈ addresses, lib.forbiddenReason address ≠ none then
          .error originRefused
        else .ok ⟨lib.normalizeOrigin parsed, parsed.host, parsed.port, addresses⟩ := by
  rw [StrictEgressPolicy.validate, h.parses]
  dsimp only
  rw [if_neg (not_not.mpr h.scheme), if_neg (not_not.mpr h.allowed), if_neg h.named]

theorem isPlain_iff_of_asks (h : policy.Asks endpoint parsed) :
    policy.IsPlain endpoint ↔ policy.Resolves parsed := by
  constructor
  · exact fun hplain => hplain.resolved parsed h
  · refine fun hresolves => ⟨?_, fun other hother => ?_⟩
    · obtain ⟨-, parts, hsplit, -⟩ := parseEndpoint_ok h.parses
      simp [hsplit]
    · rw [Except.ok.inj (hother.parses.symm.trans h.parses)]
      exact hresolves

theorem sound_iff (h : policy.Asks endpoint parsed) {addresses : List Text}
    (hpassed : ∀ address ∈ addresses, lib.forbiddenReason address = none) :
    policy.Sound endpoint ⟨lib.normalizeOrigin parsed, parsed.host, parsed.port, addresses⟩ ↔
      lib.IsClean parsed addresses := by
  constructor
  · intro hsound
    refine ⟨fun name hname => (hsound.named name hname).2, fun address haddress ip hip => ?_⟩
    obtain ⟨found, hfound, hrouted⟩ := hsound.routed address haddress
    rw [hip] at hfound
    cases hfound
    exact (routed_iff (hpassed address haddress) hip).mp hrouted
  · intro hclean
    obtain ⟨-, parts, hsplit, hscheme, hfragment, huser, hpassword, hhost⟩ :=
      parseEndpoint_ok h.parses
    constructor
    case absolute =>
      exact ⟨parts, hsplit, hscheme.trans h.scheme, hfragment, huser, hpassword, hhost⟩
    case published =>
      refine ⟨?_, policy.normalized _ h.allowed⟩
      rw [StandardLibrary.normalizeAllowlist, h.parses]
      rfl
    case named =>
      exact fun name hname => ⟨fun heq => h.named (heq ▸ hname), hclean.undotted name hname⟩
    case routed =>
      intro address haddress
      obtain ⟨ip, hip⟩ := exists_ipAddress (hpassed address haddress)
      have hshared := hclean.unshared address haddress ip hip
      exact ⟨ip, hip, (routed_iff (hpassed address haddress) hip).mpr hshared⟩

theorem meets_iff_of_asks (h : policy.Asks endpoint parsed) :
    policy.Meets endpoint ↔ policy.Resolves parsed := by
  rw [StrictEgressPolicy.Meets, validate_of_asks h, StrictEgressPolicy.Resolves]
  cases policy.resolve parsed.host parsed.port with
  | none => simp
  | some addresses =>
    dsimp only
    split_ifs with hempty hforbidden
    · exact iff_of_true ⟨_, rfl⟩ ⟨addresses, rfl, fun hne => absurd hempty hne⟩
    · obtain ⟨address, haddress, hreason⟩ := hforbidden
      exact iff_of_true ⟨_, rfl⟩
        ⟨addresses, rfl, fun _ hpassed => absurd (hpassed address haddress) hreason⟩
    · have hpassed : ∀ address ∈ addresses, lib.forbiddenReason address = none := by
        intro address haddress
        by_contra hreason
        exact hforbidden ⟨address, haddress, hreason⟩
      dsimp only
      rw [sound_iff h hpassed]
      constructor
      · exact fun hclean => ⟨addresses, rfl, fun _ _ => hclean⟩
      · rintro ⟨found, hfound, hclean⟩
        cases hfound
        exact hclean hempty hpassed

theorem meets_iff : policy.Meets endpoint ↔ policy.IsPlain endpoint := by
  cases hparsed : lib.parseEndpoint endpoint with
  | error failure =>
    have hnone : ∀ parsed, ¬ policy.Asks endpoint parsed := by
      intro parsed hasks
      rw [hasks.parses] at hparsed
      cases hparsed
    rw [StrictEgressPolicy.Meets, StrictEgressPolicy.validate, hparsed]
    rcases parseEndpoint_error hparsed with ⟨hsplit, rfl⟩ | ⟨hsplit, rfl⟩
    · exact iff_of_false (by simp) fun hplain => hplain.split hsplit
    · exact iff_of_true ⟨_, rfl⟩ ⟨hsplit, fun parsed hasks => absurd hasks (hnone parsed)⟩
  | ok parsed =>
    by_cases hasks : policy.Asks endpoint parsed
    · rw [meets_iff_of_asks hasks, isPlain_iff_of_asks hasks]
    · obtain ⟨-, parts, hsplit, -⟩ := parseEndpoint_ok hparsed
      rw [StrictEgressPolicy.Meets, validate_of_not_asks hparsed hasks]
      refine iff_of_true ⟨_, rfl⟩ ⟨by simp [hsplit], fun other hother => ?_⟩
      have hsame := Except.ok.inj (hother.parses.symm.trans hparsed)
      exact absurd (hsame ▸ hother) hasks

variable {left right : Endpoint}

theorem append_colon_inj {front front' back back' : Text} (hback : Sum.inl ':' ∉ back)
    (hback' : Sum.inl ':' ∉ back')
    (h : front ++ Sum.inl ':' :: back = front' ++ Sum.inl ':' :: back') :
    front = front' ∧ back = back' := by
  rcases List.append_eq_append_iff.mp h with ⟨rest, rfl, hrest⟩ | ⟨rest, rfl, hrest⟩
  · cases rest with
    | nil => exact ⟨(List.append_nil _).symm, (List.cons.inj hrest).2⟩
    | cons first rest =>
      rw [(List.cons.inj hrest).2] at hback
      simp at hback
  · cases rest with
    | nil => exact ⟨List.append_nil _, (List.cons.inj hrest).2.symm⟩
    | cons first rest =>
      rw [(List.cons.inj hrest).2] at hback'
      simp at hback'

theorem portSuffix_cases (parsed : Endpoint) :
    (portSuffix parsed = [] ∧ defaultPort? parsed.scheme = some parsed.port) ∨
      portSuffix parsed = Sum.inl ':' :: (Nat.toDigits 10 parsed.port).map Sum.inl := by
  rw [portSuffix]
  split_ifs with hdefault
  · exact Or.inl ⟨rfl, hdefault⟩
  · exact Or.inr rfl

theorem colon_notMem_digits (port : Nat) :
    (Sum.inl ':' : Char ⊕ Fin 2048) ∉ (Nat.toDigits 10 port).map Sum.inl := by
  intro hmem
  obtain ⟨digit, hdigit, heq⟩ := List.mem_map.mp hmem
  have hcolon := Nat.isDigit_of_mem_toDigits (by decide) (by decide) hdigit
  rw [Sum.inl.inj heq] at hcolon
  exact absurd hcolon (by decide)

theorem scheme_cases {scheme : Text} (h : defaultPort? scheme ≠ none) :
    scheme = text "https" ∨ scheme = text "http" := by
  unfold defaultPort? at h
  split_ifs at h with hhttps hhttp
  · exact Or.inl hhttps
  · exact Or.inr hhttp
  · exact absurd rfl h

theorem normalizeOrigin_iff (hleft : defaultPort? left.scheme ≠ none)
    (hright : defaultPort? right.scheme ≠ none) :
    lib.normalizeOrigin left = lib.normalizeOrigin right ↔ left.scheme = right.scheme ∧
      ((lib.lower left.host = lib.lower right.host ∧ left.port = right.port) ∨
        lib.Absorbs left right ∨ lib.Absorbs right left) := by
  constructor
  · intro h
    unfold StandardLibrary.normalizeOrigin at h
    have hscheme : left.scheme = right.scheme := by
      rcases scheme_cases hleft with hl | hl <;> rcases scheme_cases hright with hr | hr <;>
        simp_all [text]
    rw [hscheme] at h
    have hrest := List.append_cancel_left h
    refine ⟨hscheme, ?_⟩
    rcases portSuffix_cases left with ⟨hl, hdefault⟩ | hl <;>
      rcases portSuffix_cases right with ⟨hr, hdefault'⟩ | hr
    · rw [hl, hr, List.append_nil, List.append_nil] at hrest
      rw [hscheme, hdefault'] at hdefault
      exact Or.inl ⟨hrest, (Option.some.inj hdefault).symm⟩
    · rw [hl, List.append_nil] at hrest
      exact Or.inr (Or.inl ⟨hl, by simp [hr], hrest⟩)
    · rw [hr, List.append_nil] at hrest
      exact Or.inr (Or.inr ⟨hr, by simp [hl], hrest.symm⟩)
    · rw [hl, hr] at hrest
      obtain ⟨hhost, hdigits⟩ :=
        append_colon_inj (colon_notMem_digits _) (colon_notMem_digits _) hrest
      have hsame := List.map_injective_iff.mpr (fun _ _ => Sum.inl.inj) hdigits
      refine Or.inl ⟨hhost, ?_⟩
      rw [← Nat.ofDigitChars_ten_toDigits (n := left.port), hsame, Nat.ofDigitChars_ten_toDigits]
  · rintro ⟨hscheme, ⟨hhost, hport⟩ | habsorbs | habsorbs⟩
    · simp only [StandardLibrary.normalizeOrigin, portSuffix, hscheme, hhost, hport]
    · rw [StandardLibrary.normalizeOrigin, StandardLibrary.normalizeOrigin, hscheme,
        habsorbs.default, habsorbs.host, List.append_nil]
    · rw [StandardLibrary.normalizeOrigin, StandardLibrary.normalizeOrigin, hscheme,
        habsorbs.default, habsorbs.host, List.append_nil]

theorem Absorbs_ne (h : lib.Absorbs left right) : lib.lower left.host ≠ lib.lower right.host := by
  intro hhost
  have hsame := h.host
  rw [hhost, List.self_eq_append_right] at hsame
  exact h.explicit hsame

/-- When a call and two endpoints meet what is claimed of them. -/
theorem egress_iff (policy : StrictEgressPolicy lib) (endpoint other : Text) :
    (policy.Meets endpoint ↔ policy.IsPlain endpoint) ∧
      (lib.Normalizes endpoint other ↔ ¬ lib.Collide endpoint other) := by
  refine ⟨meets_iff, ?_, ?_⟩
  · rintro hnormalizes ⟨left, right, hleft, hright, hscheme, habsorbs⟩
    have hsame := (normalizeOrigin_iff (parseEndpoint_ok hleft).1 (parseEndpoint_ok hright).1).mpr
      ⟨hscheme, Or.inr habsorbs⟩
    have hhost := ((hnormalizes left right hleft hright).mp hsame).2.1
    rcases habsorbs with habsorbs | habsorbs
    · exact Absorbs_ne habsorbs hhost
    · exact Absorbs_ne habsorbs hhost.symm
  · intro hapart left right hleft hright
    rw [normalizeOrigin_iff (parseEndpoint_ok hleft).1 (parseEndpoint_ok hright).1]
    refine and_congr_right fun hscheme => or_iff_left fun habsorbs => ?_
    exact hapart ⟨left, right, hleft, hright, hscheme, habsorbs⟩

end Proofs

def sharedLibrary : StandardLibrary where
  urlsplit _ := some ⟨text "https", [], none, none, some (text "mcp.example"), some none⟩
  ipAddress address := if address = text "100.64.0.1" then some (.v4 0x64400001) else none
  lower := id

def sharedPolicy : StrictEgressPolicy sharedLibrary where
  entries := [text "https://mcp.example"]
  allowedOrigins := [text "https://mcp.example"]
  resolve _ _ := some [text "100.64.0.1"]
  accepted _ _ := ⟨text "https://mcp.example", rfl⟩
  normalized origin horigin := by
    rw [List.mem_singleton.mp horigin]
    exact ⟨text "https://mcp.example", List.mem_singleton.mpr rfl, rfl⟩

/-- An address of the shared space passes. -/
theorem sharedAddress_passes : ¬ sharedPolicy.Meets (text "https://mcp.example/mcp") := by
  intro hmeets
  have hvalidated : sharedPolicy.validate (text "https://mcp.example/mcp") =
      .ok ⟨text "https://mcp.example", text "mcp.example", 443, [text "100.64.0.1"]⟩ :=
    rfl
  rw [StrictEgressPolicy.Meets, hvalidated] at hmeets
  obtain ⟨ip, hip, hglobal, -⟩ := hmeets.routed _ (List.mem_singleton.mpr rfl)
  cases hip
  exact absurd hglobal.notShared (by decide)

end Egress

end NervOS
