import NodeScope.Lib.Runes

/-!
# URL records and what a URL object shows of them

The URL standard parses a text into a record and lets programs read texts that are made from the
record again. The parser is not here: a record keeps what the standard says of every parsed URL with
the scheme `http` or `https`, and of its host.
-/

namespace NodeScope.Lib.Whatwg

section Hosts

/-- A label of a host that would be read as a number, decimal, octal or hexadecimal. -/
def isNumberLabel (label : List Char) : Bool :=
  match label with
  | [] => false
  | '0' :: 'x' :: digits => digits.all fun c => c.isDigit || ('a' ≤ c && c ≤ 'f')
  | label => label.all Char.isDigit

/-- Whether the last label, but for an empty one, is a number: then the host is an IPv4 address or
no host at all. -/
def endsInNumber (text : String) : Bool :=
  match (text.toList.splitOn '.').reverse with
  | [] :: last :: _ => isNumberLabel last
  | last :: _ => isNumberLabel last
  | [] => false

/-- A domain in the form that its conversion to ASCII gives it. -/
structure Domain where
  text : String
  nonempty : text ≠ ""
  lower : ∀ c ∈ text.toList, c.toLower = c
  colon : ':' ∉ text.toList
  named : endsInNumber text = false
deriving DecidableEq

inductive Host where
  | domain (name : Domain)
  | ipv4 (a b c d : UInt8)
  | ipv6 (pieces : Vector UInt16 8)
  | nonspecial (text : String)
  | empty
deriving DecidableEq

/-- The hosts of the schemes `http` and `https`. -/
def Host.special : Host → Bool
  | .nonspecial _ => false
  | .empty => false
  | _ => true

/-- Where the first longest run of zeros begins, and its length. -/
def longestRun : List UInt16 → Nat × Nat
  | [] => (0, 0)
  | piece :: rest =>
      let here := ((piece :: rest).takeWhile (· == 0)).length
      let (start, length) := longestRun rest
      if length ≤ here then (0, here) else (start + 1, length)

def hexText (piece : UInt16) : List Char := Nat.toDigits 16 piece.toNat

def joinPieces (pieces : List UInt16) : List Char := [':'].intercalate (pieces.map hexText)

/-- The IPv6 serializer: one run of at least two zeros is left out. -/
def serializeIPv6 (pieces : List UInt16) : List Char :=
  let (start, length) := longestRun pieces
  if 2 ≤ length then
    joinPieces (pieces.take start) ++ ':' :: ':' :: joinPieces (pieces.drop (start + length))
  else joinPieces pieces

def serializeIPv4 (octets : List UInt8) : List Char :=
  ['.'].intercalate (octets.map fun octet => (Nat.repr octet.toNat).toList)

/-- The host serializer, which puts brackets around an IPv6 address. -/
def Host.serialize : Host → String
  | .domain name => name.text
  | .ipv4 a b c d => String.ofList (serializeIPv4 [a, b, c, d])
  | .ipv6 pieces => String.ofList ('[' :: serializeIPv6 pieces.toList ++ [']'])
  | .nonspecial text => text
  | .empty => ""

/-- The IPv6 address `::1`. -/
def loopback6 : Vector UInt16 8 := #v[0, 0, 0, 0, 0, 0, 0, 1]

def Domain.localhost : Domain where
  text := "localhost"
  nonempty := by decide
  lower := List.forall_iff_forall_mem.mp (by decide)
  colon := by decide
  named := by decide

example : (Host.domain .localhost).serialize = "localhost" := rfl

example : (Host.ipv6 loopback6).serialize = "[::1]" := by decide +kernel

example : (Host.ipv6 #v[0x2001, 0xdb8, 0, 0, 1, 0, 0, 1]).serialize = "[2001:db8::1:0:0:1]" := by
  decide +kernel

end Hosts

section Records

inductive Path where
  | text (text : String)
  | segments (segments : List String)
deriving DecidableEq

def isWeb (scheme : String) : Bool := scheme == "http" || scheme == "https"

structure URLRecord where
  scheme : String
  username : String
  password : String
  host : Option Host
  path : Path
  query : Option String
  fragment : Option String
  webHost : isWeb scheme = true → ∃ h, host = some h ∧ h.special = true
  webPath : isWeb scheme = true → ∃ first rest, path = .segments (first :: rest)

namespace URLRecord

variable (u : URLRecord)

def protocol : String := u.scheme ++ ":"

def hostname : String := (u.host.map Host.serialize).getD ""

def pathname : String :=
  match u.path with
  | .text text => text
  | .segments segments => String.ofList (segments.flatMap fun segment => '/' :: segment.toList)

/-- A part that is missing or empty is not shown, not even its mark. -/
def marked (mark : String) (part : Option String) : String :=
  match part with
  | none => ""
  | some text => if text = "" then "" else mark ++ text

def search : String := marked "?" u.query

def hash : String := marked "#" u.fragment

end URLRecord

theorem marked_eq_empty_iff {mark : String} (h : mark ≠ "") {part : Option String} :
    URLRecord.marked mark part = "" ↔ part = none ∨ part = some "" := by
  cases part with
  | none => simp [URLRecord.marked]
  | some text =>
      by_cases htext : text = ""
      · simp [URLRecord.marked, htext]
      · simp [URLRecord.marked, htext, h]

theorem URLRecord.protocol_eq_iff (u : URLRecord) (scheme : String) :
    u.protocol = scheme ++ ":" ↔ u.scheme = scheme := by
  rw [URLRecord.protocol]
  exact String.append_left_inj ":"

end Records

section HostTexts

variable {h : Host}

theorem serialize_ne_empty (hspecial : h.special = true) : h.serialize ≠ "" := by
  cases h with
  | domain name => exact name.nonempty
  | ipv4 a b c d =>
      intro hempty
      have hlist := congrArg String.toList hempty
      rw [Host.serialize, String.toList_ofList, serializeIPv4] at hlist
      simp [List.intercalate_cons_cons] at hlist
  | ipv6 pieces =>
      intro hempty
      have hlist := congrArg String.toList hempty
      rw [Host.serialize, String.toList_ofList] at hlist
      cases hlist
  | nonspecial text => cases hspecial
  | empty => cases hspecial

/-- An IPv6 address begins with a bracket, in small letters too. -/
theorem head_lower_ipv6 (pieces : Vector UInt16 8) :
    (((Host.ipv6 pieces).serialize.map Char.toLower).toList).head? = some '[' := by
  rw [String.toList_map, Host.serialize, String.toList_ofList]
  rfl

theorem digits_lower (n : Nat) : (Nat.toDigits 10 n).map Char.toLower = Nat.toDigits 10 n := by
  refine (List.map_congr_left fun c hc => ?_).trans (List.map_id _)
  have hdigit := Nat.isDigit_of_mem_toDigits (by decide) (by decide) hc
  apply Runes.toLower_of_not_capital
  simp only [Char.isDigit, Bool.and_eq_true, decide_eq_true_eq, ge_iff_le, UInt32.le_iff_toNat_le,
    Char.toNat_val, Char.reduceToNat] at hdigit
  omega

/-- The octets of an IPv4 address are the labels of its text. -/
theorem splitOn_lower_ipv4 (a b c d : UInt8) :
    (((Host.ipv4 a b c d).serialize.map Char.toLower).toList).splitOn '.' =
      [a, b, c, d].map fun octet => (Nat.repr octet.toNat).toList := by
  have hlower : (serializeIPv4 [a, b, c, d]).map Char.toLower = serializeIPv4 [a, b, c, d] := by
    simp [serializeIPv4, List.intercalate_cons_cons, digits_lower]
  rw [String.toList_map, Host.serialize, String.toList_ofList, hlower, serializeIPv4,
    List.splitOn_intercalate]
  · intro label hlabel
    obtain ⟨octet, -, rfl⟩ := List.mem_map.mp hlabel
    exact Text.notMem_repr (by decide) _
  · simp

theorem repr_eq_iff {octet : UInt8} {n : Nat} (hn : n < 256) :
    (Nat.repr octet.toNat).toList = (Nat.repr n).toList ↔ octet = UInt8.ofNat n := by
  rw [String.toList_inj, Nat.repr_inj, ← UInt8.toNat_inj, UInt8.toNat_ofNat_of_lt' hn]

theorem lower_domain (name : Domain) : name.text.map Char.toLower = name.text := by
  rw [← String.toList_inj, String.toList_map]
  exact (List.map_congr_left name.lower).trans (List.map_id _)

end HostTexts

end NodeScope.Lib.Whatwg
