import NodeScope.Lib.Decimal

/-!
# IP addresses in text

Go's `net.ParseIP`, which reads an IPv4 address as the IPv6 address that it is mapped to, and the
kinds of addresses that `net.IP` tells apart. A text with a zone, or with a dot at its end, is no
address for it; Go's `netip.ParseAddr` reads an address with its zone.
-/

namespace NodeScope.Lib.IpAddress

open Text Decimal

def colon : UInt8 := 0x3a

def dot : UInt8 := 0x2e

def percent : UInt8 := 0x25

def isHexDigit (b : UInt8) : Bool := (Url.hexValue b).isSome

/-- The value of a run of hexadecimal digits. -/
def hexadecimal (digits : Bytes) : Nat :=
  digits.foldl (fun value b => value * 16 + ((Url.hexValue b).getD 0).toNat) 0

/-- One field of an IPv4 address: no leading zero, and no value above 255. -/
def octet (field : Bytes) : Option UInt8 :=
  if field.isEmpty || !field.all Url.isDigit then none
  else if 1 < field.length && field.head? == some 0x30 then none
  else if 255 < decimal field then none
  else some (UInt8.ofNat (decimal field))

/-- Go's `parseIPv4Fields`. -/
def parseIPv4 (s : Bytes) : Option Bytes :=
  match s.splitOn dot with
  | [a, b, c, d] => do
      let a ← octet a
      let b ← octet b
      let c ← octet c
      let d ← octet d
      some [a, b, c, d]
  | _ => none

/-- The bytes before an ellipsis or the end, and where the ellipsis stands. -/
structure Groups where
  ip : Bytes
  ellipsis : Option Nat
  rest : Bytes
deriving DecidableEq

/-- The loop of `netip.parseIPv6` over the groups of hexadecimal digits. -/
def readGroups : Nat → Groups → Option Groups
  | 0, g => some g
  | fuel + 1, g =>
      if 16 ≤ g.ip.length then some g
      else
        let digits := g.rest.takeWhile isHexDigit
        if digits.isEmpty || 4 < digits.length then none
        else
          let value := hexadecimal digits
          let ip := g.ip ++ [UInt8.ofNat (value / 256), UInt8.ofNat (value % 256)]
          match g.rest.dropWhile isHexDigit with
          | [] => some { g with ip := ip, rest := [] }
          | separator :: more =>
              if separator == dot then
                if g.ellipsis.isNone && g.ip.length != 12 then none
                else if 16 < g.ip.length + 4 then none
                else (parseIPv4 g.rest).map fun last => { g with ip := g.ip ++ last, rest := [] }
              else if separator != colon || more.isEmpty then none
              else if more.head? == some colon then
                if g.ellipsis.isSome then none
                else if more.tail.isEmpty then some ⟨ip, some ip.length, []⟩
                else readGroups fuel ⟨ip, some ip.length, more.tail⟩
              else readGroups fuel { g with ip := ip, rest := more }

/-- The zeros that an ellipsis stands for are filled in. -/
def Groups.expand (g : Groups) : Option Bytes :=
  if !g.rest.isEmpty then none
  else
    match g.ellipsis with
    | none => if g.ip.length < 16 then none else some g.ip
    | some position =>
        if g.ip.length < 16 then
          some (g.ip.take position ++ List.replicate (16 - g.ip.length) 0 ++ g.ip.drop position)
        else none

/-- Go's `netip.parseIPv6` of a text without a zone. -/
def parseIPv6 (s : Bytes) : Option Bytes :=
  if [colon, colon].isPrefixOf s then
    if s.length == 2 then some (List.replicate 16 0)
    else (readGroups 8 ⟨[], some 0, s.drop 2⟩).bind Groups.expand
  else (readGroups 8 ⟨[], none, s⟩).bind Groups.expand

/-- The addresses that stand for IPv4 addresses. -/
def mapped : Bytes := List.replicate 10 0 ++ [0xff, 0xff]

/-- Go's `net.ParseIP`. -/
def parseIP (s : Bytes) : Option Bytes :=
  match s.find? fun b => b == dot || b == colon || b == percent with
  | none => none
  | some b =>
      if b == dot then (parseIPv4 s).map (mapped ++ ·)
      else if b == percent || s.contains percent then none
      else parseIPv6 s

/-- Go's `netip.ParseAddr`: an address and its zone, which an IPv6 address may have behind a percent
sign. An IPv4 address is the one that it is mapped to. -/
def parseAddr (s : Bytes) : Option (Bytes × Bytes) :=
  match s.find? fun b => b == dot || b == colon || b == percent with
  | none => none
  | some b =>
      if b == dot then (parseIPv4 s).map fun ip => (mapped ++ ip, [])
      else if b == percent || s.dropWhile (· != percent) == [percent] then none
      else
        (parseIPv6 (s.takeWhile (· != percent))).map fun ip =>
          (ip, (s.dropWhile (· != percent)).tail)

/-- Go's `To4`. -/
def to4 (ip : Bytes) : Option Bytes := if ip.take 12 == mapped then some (ip.drop 12) else none

def isUnspecified (ip : Bytes) : Bool :=
  ip == mapped ++ [0, 0, 0, 0] || ip == List.replicate 16 0

def isLoopback (ip : Bytes) : Bool :=
  match to4 ip with
  | some ip4 => ip4.head? == some 127
  | none => ip == List.replicate 15 0 ++ [1]

def isMulticast (ip : Bytes) : Bool :=
  match to4 ip with
  | some ip4 => ip4.head?.any fun first => first &&& 0xf0 == 0xe0
  | none => ip.head? == some 0xff

def isLinkLocalUnicast (ip : Bytes) : Bool :=
  match to4 ip with
  | some ip4 => ip4.take 2 == [169, 254]
  | none => ip.head? == some 0xfe && (ip.tail.head?.any fun second => second &&& 0xc0 == 0x80)

example : parseIP (utf8 "::ffff:10.0.0.1") = parseIP (utf8 "10.0.0.1") := by decide

example : parseIP (utf8 "2001:db8::1%eth0") = none := by decide

example : parseAddr (utf8 "2001:db8::1%eth0") = parseAddr (utf8 "2001:db8:0::1%eth0") := by decide

section Bytes

variable {s ip : Bytes} {c : UInt8}

/-- The bytes that addresses are written with. -/
def addressByte (b : UInt8) : Bool := isHexDigit b || b == dot || b == colon

theorem addressByte_of_hexDigit {b : UInt8} (h : isHexDigit b = true) : addressByte b = true := by
  rw [addressByte, h]
  rfl

theorem mem_splitOn {b : UInt8} (h : b ∈ s) : b = c ∨ ∃ field ∈ s.splitOn c, b ∈ field := by
  induction s with
  | nil => cases h
  | cons a s ih =>
      rw [List.splitOn_cons_eq_if_modifyHead]
      obtain ⟨first, others, hsplit⟩ := List.exists_cons_of_ne_nil (List.splitOn_ne_nil c s)
      rw [hsplit] at ih ⊢
      by_cases hac : (a == c) = true
      · rw [if_pos hac]
        obtain rfl | h := List.mem_cons.mp h
        · exact Or.inl (by simpa using hac)
        · obtain hb | ⟨field, hfield, hb⟩ := ih h
          · exact Or.inl hb
          · exact Or.inr ⟨field, List.mem_cons_of_mem [] hfield, hb⟩
      · rw [if_neg hac, List.modifyHead_cons]
        obtain rfl | h := List.mem_cons.mp h
        · exact Or.inr ⟨_, List.mem_cons_self, List.mem_cons_self⟩
        · obtain hb | ⟨field, hfield, hb⟩ := ih h
          · exact Or.inl hb
          · obtain rfl | hfield := List.mem_cons.mp hfield
            · exact Or.inr ⟨_, List.mem_cons_self, List.mem_cons_of_mem a hb⟩
            · exact Or.inr ⟨field, List.mem_cons_of_mem _ hfield, hb⟩

theorem isHexDigit_of_isDigit {b : UInt8} (h : Url.isDigit b = true) : isHexDigit b = true := by
  rw [isHexDigit, Url.hexValue, if_pos h]
  rfl

theorem octet_bytes {field : Bytes} {n : UInt8} (h : octet field = some n) :
    ∀ b ∈ field, isHexDigit b = true := by
  rw [octet] at h
  split at h
  · cases h
  · rename_i hdigits
    simp only [Bool.or_eq_true, Bool.not_eq_true', not_or, Bool.not_eq_false,
      List.all_eq_true] at hdigits
    intro b hb
    exact isHexDigit_of_isDigit (hdigits.2 b hb)

theorem parseIPv4_bytes (h : parseIPv4 s = some ip) : ∀ b ∈ s, addressByte b = true := by
  rw [parseIPv4] at h
  split at h
  · rename_i w x y z hsplit
    simp only [Option.bind_eq_bind, Option.bind_eq_some_iff] at h
    obtain ⟨_, hw, _, hx, _, hy, _, hz, -⟩ := h
    have hfields : ∀ field ∈ s.splitOn dot, ∀ b ∈ field, isHexDigit b = true := by
      intro field hfield
      rw [hsplit] at hfield
      simp only [List.mem_cons, List.not_mem_nil, or_false] at hfield
      obtain rfl | rfl | rfl | rfl := hfield
      · exact octet_bytes hw
      · exact octet_bytes hx
      · exact octet_bytes hy
      · exact octet_bytes hz
    intro b hb
    obtain rfl | ⟨field, hfield, hmem⟩ := mem_splitOn (c := dot) hb
    · rfl
    · exact addressByte_of_hexDigit (hfields field hfield b hmem)
  · cases h

theorem readGroups_bytes {fuel : Nat} {g g' : Groups} (h : readGroups fuel g = some g')
    (hrest : g'.rest = []) : ∀ b ∈ g.rest, addressByte b = true := by
  induction fuel generalizing g with
  | zero =>
      obtain rfl := Option.some.inj h
      simp [hrest]
  | succ fuel ih =>
      have hdigits : ∀ b ∈ g.rest.takeWhile isHexDigit, addressByte b = true :=
        fun b hb => addressByte_of_hexDigit (List.mem_takeWhile_imp hb)
      have hsplit : ∀ tail, g.rest.dropWhile isHexDigit = tail →
          (∀ b ∈ tail, addressByte b = true) → ∀ b ∈ g.rest, addressByte b = true := by
        rintro tail rfl htail b hb
        rw [← List.takeWhile_append_dropWhile (p := isHexDigit) (l := g.rest)] at hb
        obtain hb | hb := List.mem_append.mp hb
        · exact hdigits b hb
        · exact htail b hb
      rw [readGroups] at h
      split at h
      · obtain rfl := Option.some.inj h
        simp [hrest]
      dsimp only at h
      split at h
      · cases h
      split at h
      · rename_i hdrop
        exact hsplit [] hdrop (by simp)
      · rename_i separator more hdrop
        split at h
        · -- An IPv4 address ends the text.
          split at h
          · cases h
          split at h
          · cases h
          obtain ⟨last, hlast, -⟩ := Option.map_eq_some_iff.mp h
          exact parseIPv4_bytes hlast
        split at h
        · cases h
        rename_i hcolon
        have hseparator : addressByte separator = true := by
          simp only [Bool.or_eq_true, bne_iff_ne, ne_eq, not_or, not_not] at hcolon
          rw [hcolon.1]
          rfl
        refine hsplit _ hdrop (List.forall_mem_cons.mpr ⟨hseparator, ?_⟩)
        split at h
        · rename_i hellipsis
          obtain ⟨tail, rfl⟩ : ∃ tail, more = colon :: tail :=
            ⟨more.tail, (List.cons_head?_tail (by simpa using hellipsis)).symm⟩
          have htail : ∀ b ∈ tail, addressByte b = true := by
            split at h
            · cases h
            split at h
            · rename_i hempty
              have hnil : tail = [] := by simpa using hempty
              simp [hnil]
            · exact ih h
          exact List.forall_mem_cons.mpr ⟨rfl, htail⟩
        · exact ih h

theorem expand_rest {g : Groups} (h : g.expand = some ip) : g.rest = [] := by
  rw [Groups.expand] at h
  split at h
  · cases h
  · rename_i hrest
    simpa using hrest

theorem parseIPv6_bytes (h : parseIPv6 s = some ip) : ∀ b ∈ s, addressByte b = true := by
  have hgroups : ∀ g, (readGroups 8 g).bind Groups.expand = some ip →
      ∀ b ∈ g.rest, addressByte b = true := by
    intro g hg
    obtain ⟨g', hread, hexpand⟩ := Option.bind_eq_some_iff.mp hg
    exact readGroups_bytes hread (expand_rest hexpand)
  rw [parseIPv6] at h
  split at h
  · rename_i hstart
    obtain ⟨tail, rfl⟩ := List.isPrefixOf_iff_prefix.mp hstart
    have htail : ∀ b ∈ tail, addressByte b = true := by
      split at h
      · rename_i hlength
        have hnil : tail = [] := by simpa using hlength
        simp [hnil]
      · exact hgroups _ h
    intro b hb
    simp only [List.cons_append, List.nil_append, List.mem_cons] at hb
    obtain rfl | rfl | hb := hb
    · rfl
    · rfl
    · exact htail b hb
  · exact hgroups _ h

/-- What an address is written with. -/
theorem parseIP_bytes (h : parseIP s = some ip) : ∀ b ∈ s, addressByte b = true := by
  rw [parseIP] at h
  split at h
  · cases h
  split at h
  · obtain ⟨ip4, hparse, -⟩ := Option.map_eq_some_iff.mp h
    exact parseIPv4_bytes hparse
  split at h
  · cases h
  exact parseIPv6_bytes h

/-- What is dropped before a percent sign ends at one. -/
theorem dropWhile_percent {b : UInt8} {rest : Bytes}
    (h : s.dropWhile (· != percent) = b :: rest) : b = percent := by
  have hne : s.dropWhile (· != percent) ≠ [] := by
    rw [h]
    exact List.cons_ne_nil b rest
  have hhead := List.head_dropWhile_not (· != percent) hne
  simpa [h] using hhead

/-- The zone of an address as it stands in its text. -/
def zoneText (zone : Bytes) : Bytes := if zone = [] then [] else percent :: zone

/-- An address is written with its bytes, and then with its zone. -/
theorem parseAddr_bytes {zone : Bytes} (h : parseAddr s = some (ip, zone)) :
    ∃ text, s = text ++ zoneText zone ∧ ∀ b ∈ text, addressByte b = true := by
  rw [parseAddr] at h
  split at h
  · cases h
  split at h
  · obtain ⟨ip4, hparse, heq⟩ := Option.map_eq_some_iff.mp h
    obtain ⟨-, rfl⟩ := Prod.mk.inj heq
    exact ⟨s, by simp [zoneText], parseIPv4_bytes hparse⟩
  split at h
  · cases h
  · rename_i hzone
    obtain ⟨ip6, hparse, heq⟩ := Option.map_eq_some_iff.mp h
    obtain ⟨-, rfl⟩ := Prod.mk.inj heq
    refine ⟨s.takeWhile (· != percent), ?_, parseIPv6_bytes hparse⟩
    have hsplit := (List.takeWhile_append_dropWhile (p := (· != percent)) (l := s)).symm
    cases hdrop : s.dropWhile (· != percent) with
    | nil =>
        rw [hdrop] at hsplit
        simpa [zoneText] using hsplit
    | cons b zone =>
        have hb := dropWhile_percent hdrop
        rw [hdrop, hb] at hsplit hzone
        have hne : zone ≠ [] := by
          rintro rfl
          simp at hzone
        rw [List.tail_cons, zoneText, if_neg hne]
        exact hsplit

/-- `net.ParseIP` takes the addresses without a zone. -/
theorem parseIP_eq_some_iff : parseIP s = some ip ↔ parseAddr s = some (ip, []) := by
  rw [parseIP, parseAddr]
  split
  · simp
  split
  · simp
  by_cases hpercent : s.contains percent = true
  · have hmem : percent ∈ s := by simpa using hpercent
    have hdrop : s.dropWhile (· != percent) ≠ [] := by
      intro hnil
      have hall := List.dropWhile_eq_nil_iff.mp hnil percent hmem
      simp at hall
    obtain ⟨b, zone, hcons⟩ := List.exists_cons_of_ne_nil hdrop
    have hb := dropWhile_percent hcons
    simp only [hpercent, Bool.or_true, if_true, reduceCtorEq, false_iff]
    intro h
    split at h
    · cases h
    · rename_i hzone
      obtain ⟨ip', -, heq⟩ := Option.map_eq_some_iff.mp h
      have hnil : zone = [] := by simpa [hcons] using (Prod.mk.inj heq).2
      rw [hcons, hb, hnil] at hzone
      simp at hzone
  · have hall : ∀ b ∈ s, (b != percent) = true := by
      intro b hb
      rw [bne_iff_ne]
      rintro rfl
      exact hpercent (by simpa using hb)
    have hdrop : s.dropWhile (· != percent) = [] := List.dropWhile_eq_nil_iff.mpr hall
    have htake : s.takeWhile (· != percent) = s := List.takeWhile_eq_self_iff.mpr hall
    have hcolon : ([] == [percent]) = false := rfl
    simp only [hdrop, htake, hpercent, hcolon, Bool.or_false, List.tail_nil]
    split <;> simp

end Bytes

end NodeScope.Lib.IpAddress
