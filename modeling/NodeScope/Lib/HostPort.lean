import Mathlib.Data.List.DropRight
import NodeScope.Lib.Decimal
import NodeScope.Lib.Runes

/-!
# Hosts and ports of URLs

The host name and the port that Go finds in the authority of a URL, and how the two are joined
again. Joining loses nothing when the port is digits. The path of a URL is determined by the way
it is written, also up to slashes at its end.
-/

namespace NodeScope.Lib.Url

open Text

/-- The parts around the last colon that is followed by digits only. -/
def splitPort (hostPort : List UInt8) : List UInt8 × List UInt8 :=
  match cutAtLast 0x3a hostPort with
  | some (host, port) => if port.all isDigit then (host, port) else (hostPort, [])
  | none => (hostPort, [])

def stripBrackets (host : List UInt8) : List UInt8 :=
  if host.head? == some 0x5b && host.getLast? == some 0x5d then host.tail.dropLast else host

/-- Go's `Hostname`. -/
def URL.hostname (u : URL) : List UInt8 := stripBrackets (splitPort u.host).1

/-- Go's `Port`. -/
def URL.port (u : URL) : List UInt8 := (splitPort u.host).2

/-- Go's `net.JoinHostPort`. -/
def joinHostPort (host port : List UInt8) : List UInt8 :=
  if host.contains 0x3a then 0x5b :: host ++ 0x5d :: 0x3a :: port else host ++ 0x3a :: port

example : joinHostPort (utf8 "::1") (utf8 "443") = utf8 "[::1]:443" := by decide

section Joining

variable {u : URL} {host host' port port' : List UInt8} {c : UInt8}

theorem port_digits (u : URL) : u.port.all isDigit = true := by
  rw [URL.port, splitPort]
  split
  · split
    · assumption
    · rfl
  · rfl

theorem hostname_subset (u : URL) : u.hostname ⊆ u.host := by
  have hsplit : (splitPort u.host).1 ⊆ u.host := by
    rw [splitPort]
    obtain ⟨-, hcut⟩ | ⟨before, after, hhost, -, hcut⟩ := cutAtLast_cases 0x3a u.host
    · rw [hcut]
      exact List.Subset.refl _
    · rw [hcut]
      dsimp only
      split
      · rw [hhost]
        exact List.subset_append_left _ _
      · exact List.Subset.refl _
  refine List.Subset.trans ?_ hsplit
  rw [URL.hostname, stripBrackets]
  split
  · exact List.Subset.trans (List.dropLast_subset _) (fun _ => List.mem_of_mem_tail)
  · exact List.Subset.refl _

theorem cutAtLast_joinHostPort (hport : 0x3a ∉ port) :
    cutAtLast 0x3a (joinHostPort host port) =
      some (if host.contains 0x3a then 0x5b :: host ++ [0x5d] else host, port) := by
  rw [joinHostPort]
  split
  · have happend : 0x5b :: host ++ 0x5d :: 0x3a :: port =
        (0x5b :: host ++ [0x5d]) ++ 0x3a :: port := by simp
    rw [happend]
    exact cutAtLast_append hport
  · exact cutAtLast_append hport

/-- Hosts and ports are told apart after they were joined. -/
theorem joinHostPort_inj (hport : 0x3a ∉ port) (hport' : 0x3a ∉ port') :
    joinHostPort host port = joinHostPort host' port' ↔ host = host' ∧ port = port' := by
  constructor
  · intro h
    have hcut := congrArg (cutAtLast 0x3a) h
    rw [cutAtLast_joinHostPort hport, cutAtLast_joinHostPort hport', Option.some.injEq,
      Prod.mk.injEq] at hcut
    refine ⟨?_, hcut.2⟩
    -- A host with a colon stands in brackets, and so cannot be the other one without.
    have hcolon := hcut.1
    split at hcolon <;> split at hcolon
    · simpa using hcolon
    · rename_i hmem hnot
      rw [← hcolon] at hnot
      rw [List.contains_iff_mem] at hmem
      simp [hmem] at hnot
    · rename_i hnot hmem
      rw [hcolon] at hnot
      rw [List.contains_iff_mem] at hmem
      simp [hmem] at hnot
    · exact hcolon
  · rintro ⟨rfl, rfl⟩
    rfl

theorem not_mem_joinHostPort (hhost : c ∉ host) (hport : c ∉ port) (hsign : c ≠ 0x3a)
    (hopen : c ≠ 0x5b) (hclose : c ≠ 0x5d) : c ∉ joinHostPort host port := by
  rw [joinHostPort]
  split <;> simp [hhost, hport, hsign, hopen, hclose]

end Joining

section Reading

variable {raw authority host path s t : List UInt8} {u : URL} {mode : Encoding}

/-- No part of an authority holds a slash, escaped or not. -/
theorem slash_not_mem_of_unescapes (hmode : mode = .host ∨ mode = .zone)
    (h : Unescapes mode s t) : 0x2f ∉ t := by
  induction h with
  | nil => simp
  | @escaped x y v s t hv tail ih =>
      rw [List.mem_cons, not_or]
      refine ⟨?_, ih⟩
      rintro rfl
      obtain rfl | rfl := hmode
      · obtain ⟨-, -, hpercent⟩ | hforeign := escapedByte_host hv
        · cases hpercent
        · exact absurd hforeign (by decide)
      · have hzone := escapedByte_zone hv
        cases hzone
  | @literal c s t hc hallowed tail ih =>
      rw [List.mem_cons, not_or]
      refine ⟨?_, ih⟩
      rintro rfl
      obtain rfl | rfl := hmode <;> cases hallowed

theorem slash_not_mem_of_parseHost (h : parseHost s = some t) : 0x2f ∉ t := by
  by_cases hhead : s.head? = some 0x5b
  · obtain ⟨literal, port, -, -, -, hs⟩ |
      ⟨literal, port, before, zone, first, second, hzoned, rfl⟩ := parseHost_cases hhead h
    · exact slash_not_mem_of_unescapes (Or.inl rfl) hs
    · have hport : 0x2f ∉ 0x5d :: port :=
        slash_not_mem_of_unescapes (Or.inl rfl) (unescapes_port hzoned.port).2
      rw [List.mem_append, List.mem_append, not_or, not_or]
      exact ⟨⟨slash_not_mem_of_unescapes (Or.inl rfl) hzoned.first,
        slash_not_mem_of_unescapes (Or.inr rfl) hzoned.second⟩, hport⟩
  · exact slash_not_mem_of_unescapes (Or.inl rfl) (parseHost_name hhead h).1

theorem slash_not_mem_of_parseAuthority {hasUser : Bool}
    (h : parseAuthority authority = some (hasUser, host)) : 0x2f ∉ host := by
  rw [parseAuthority] at h
  split at h
  · obtain ⟨host', hparse, heq⟩ := Option.map_eq_some_iff.mp h
    obtain ⟨-, rfl⟩ := Prod.mk.inj heq
    exact slash_not_mem_of_parseHost hparse
  · split at h
    · rename_i host' hparse
      dsimp only at h
      split at h
      · obtain ⟨-, rfl⟩ := Prod.mk.inj (Option.some.inj h)
        exact slash_not_mem_of_parseHost hparse
      · cases h
    · cases h

/-- What `Parse` finds in a text with a scheme and an authority. -/
structure Authority (u : URL) (authority path : List UInt8) : Prop where
  read : parseAuthority authority = some (u.hasUser, u.host)
  start : path = [] ∨ ∃ rest, path = 0x2f :: rest
  unescaped : unescape .path path = some u.path
  rawPath : u.rawPath = if escape .path u.path == path then [] else path

theorem authority_of_parseRest {via : Bool} (h : parseRest raw via = some u)
    (hscheme : u.scheme ≠ []) (hhost : u.host ≠ []) (hquery : u.rawQuery = []) :
    ∃ scheme authority path mark, Hierarchical raw scheme authority path mark ∧
      Authority u authority path := by
  obtain ⟨scheme, authority, path, mark, hform⟩ := hierarchical_of_parseRest h hscheme hhost hquery
  refine ⟨scheme, authority, path, mark, hform, ?_⟩
  rw [parseRest_hierarchical hform, Option.bind_eq_some_iff] at h
  obtain ⟨⟨hasUser, host⟩, hauthority, hpath⟩ := h
  obtain ⟨p, hp, rfl⟩ := setPath_eq_some hpath
  exact ⟨hauthority, hform.start, hp, rfl⟩

/-- `Parse` leaves the part before the fragment to the parser of the rest. -/
theorem parseRest_of_parse (h : parse raw = some u) :
    ∃ before v, before <+: raw ∧ parseRest before false = some v ∧
      v = { u with fragment := v.fragment } := by
  rw [parse] at h
  simp only [Option.bind_eq_bind, Option.bind_eq_some_iff] at h
  obtain ⟨v, hv, h⟩ := h
  refine ⟨_, v, cutAt_prefix 0x23 raw, hv, ?_⟩
  split at h
  · obtain rfl := Option.some.inj h
    rfl
  · obtain rfl := Option.some.inj h
    rfl
  · obtain ⟨fragment, -, rfl⟩ := Option.map_eq_some_iff.mp h
    rfl

theorem authority_of_parse (h : parse raw = some u) (hscheme : u.scheme ≠ []) (hhost : u.host ≠ [])
    (hquery : u.rawQuery = []) : ∃ authority path, Authority u authority path := by
  obtain ⟨before, v, -, hv, hsame⟩ := parseRest_of_parse h
  have hschemes : v.scheme = u.scheme := by rw [hsame]
  have hhosts : v.host = u.host := by rw [hsame]
  have hqueries : v.rawQuery = u.rawQuery := by rw [hsame]
  have husers : v.hasUser = u.hasUser := by rw [hsame]
  have hpaths : v.path = u.path := by rw [hsame]
  have hraws : v.rawPath = u.rawPath := by rw [hsame]
  obtain ⟨-, authority, path, -, -, hv⟩ := authority_of_parseRest hv (hschemes ▸ hscheme)
    (hhosts ▸ hhost) (hqueries ▸ hquery)
  refine ⟨authority, path, ?_, hv.start, ?_, ?_⟩
  · rw [← husers, ← hhosts]
    exact hv.read
  · rw [← hpaths]
    exact hv.unescaped
  · rw [← hraws, ← hpaths]
    exact hv.rawPath

/-- Such a text begins with a letter of its scheme. -/
theorem letter_of_parse (h : parse raw = some u) (hscheme : u.scheme ≠ []) (hhost : u.host ≠ [])
    (hquery : u.rawQuery = []) : ∃ first rest, raw = first :: rest ∧ isLetter first = true := by
  obtain ⟨before, v, hprefix, hv, hsame⟩ := parseRest_of_parse h
  have hschemes : v.scheme = u.scheme := by rw [hsame]
  have hhosts : v.host = u.host := by rw [hsame]
  have hqueries : v.rawQuery = u.rawQuery := by rw [hsame]
  obtain ⟨scheme, authority, path, mark, hform⟩ :=
    hierarchical_of_parseRest hv (hschemes ▸ hscheme) (hhosts ▸ hhost) (hqueries ▸ hquery)
  obtain ⟨first, rest, hfirst, hletter⟩ := hform.letter
  obtain ⟨more, rfl⟩ := hprefix
  rw [hform.split, hfirst]
  exact ⟨first, _, rfl, hletter⟩

theorem Authority.slash_not_mem (h : Authority u authority path) : 0x2f ∉ u.host :=
  slash_not_mem_of_parseAuthority h.read

theorem Authority.path_start (h : Authority u authority path) :
    u.path = [] ∨ ∃ rest, u.path = 0x2f :: rest := by
  obtain rfl | ⟨rest, rfl⟩ := h.start
  · exact Or.inl (Option.some.inj h.unescaped).symm
  · have hpath := unescapes_of_unescape h.unescaped
    generalize u.path = p at hpath
    cases hpath with
    | @literal c s t hc hallowed tail => exact Or.inr ⟨t, rfl⟩

/-- The path of a URL is read from the way it is written. -/
theorem unescape_escapedPath (u : URL) : unescape .path u.escapedPath = some u.path := by
  rw [URL.escapedPath]
  split
  · rename_i hraw
    simp only [Bool.and_eq_true, beq_iff_eq] at hraw
    exact hraw.2
  split
  · rename_i hstar
    rw [beq_iff_eq] at hstar
    rw [hstar]
    decide
  · exact unescape_of_unescapes (unescapes_escape_path u.path)

/-- A written path starts with a slash if there is one. -/
theorem Authority.escapedPath_start (h : Authority u authority path) :
    u.escapedPath = [] ∨ ∃ rest, u.escapedPath = 0x2f :: rest := by
  have hslash : escape .path [0x2f] = [0x2f] := by decide
  have hescape : escape .path u.path = [] ∨ ∃ rest, escape .path u.path = 0x2f :: rest := by
    obtain hnil | ⟨rest, hrest⟩ := h.path_start
    · exact Or.inl (by rw [hnil]; rfl)
    · refine Or.inr ⟨escape .path rest, ?_⟩
      rw [hrest, escape_cons, hslash]
      rfl
  have hraw : u.rawPath = [] ∨ u.rawPath = path := by
    rw [h.rawPath]
    split
    · exact Or.inl rfl
    · exact Or.inr rfl
  rw [URL.escapedPath]
  split
  · obtain hnil | hpath := hraw
    · exact Or.inl hnil
    · rw [hpath]
      exact h.start
  split
  · rename_i hstar
    rw [beq_iff_eq] at hstar
    obtain hnil | ⟨rest, hrest⟩ := h.path_start
    · rw [hnil] at hstar
      cases hstar
    · rw [hrest] at hstar
      cases hstar
  · exact hescape

open Runes in
/-- Slashes at the end of a written path are slashes at the end of the path. -/
theorem trimRight_of_unescapes (h : Unescapes .path s t) :
    ∃ front, Unescapes .path (trimRight 0x2f s) front ∧ trimRight 0x2f t = trimRight 0x2f front := by
  have hself := trimRight_append_trailing 0x2f s
  cases hcount : trailing 0x2f s with
  | zero =>
      rw [hcount, List.replicate_zero, List.append_nil] at hself
      exact ⟨t, by rwa [hself], rfl⟩
  | succ n =>
      rw [hcount, List.replicate_succ] at hself
      rw [← hself] at h
      obtain ⟨front, back, rfl, hfront, hback⟩ := h.split (by decide) (by decide)
      have hplain : (0x25 : UInt8) ∉ List.replicate n 0x2f := by
        intro hmem
        cases List.eq_of_mem_replicate hmem
      obtain rfl := hback.eq_self hplain
      refine ⟨front, hfront, ?_⟩
      rw [← List.replicate_succ]
      exact trimRight_append_replicate front (n + 1)

open Runes in
/-- Paths that are written alike up to slashes at their ends are the same up to such slashes. -/
theorem trimRight_path {v : URL}
    (h : trimRight 0x2f u.escapedPath = trimRight 0x2f v.escapedPath) :
    trimRight 0x2f u.path = trimRight 0x2f v.path := by
  obtain ⟨front, hfront, hu⟩ :=
    trimRight_of_unescapes (unescapes_of_unescape (unescape_escapedPath u))
  obtain ⟨front', hfront', hv⟩ :=
    trimRight_of_unescapes (unescapes_of_unescape (unescape_escapedPath v))
  rw [h] at hfront
  have hsame : front = front' :=
    Option.some.inj ((unescape_of_unescapes hfront).symm.trans (unescape_of_unescapes hfront'))
  rw [hu, hv, hsame]

end Reading

end NodeScope.Lib.Url
