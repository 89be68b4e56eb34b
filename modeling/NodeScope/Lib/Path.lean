import Mathlib.Data.List.Basic
import NodeScope.Lib.Text

/-!
# File paths

Go's functions on slash-separated paths, and the file that a path names. `resolve` goes through
the components of a path from a working directory, so that two spellings of a path name one file
exactly if they resolve alike. A suffix without a slash changes only the last component.

## Implementation notes

A file is given by the components that lead to it from the root. Links are not followed, and every
directory on the way is taken to exist.
-/

namespace NodeScope.Lib.Path

open Text

abbrev Bytes := List UInt8

abbrev Location := List Bytes

def slash : UInt8 := 0x2f

def dot : UInt8 := 0x2e

/-- The parts of a path between its slashes. -/
def components : Bytes → List Bytes
  | [] => [[]]
  | c :: rest =>
      if c == slash then [] :: components rest
      else
        match components rest with
        | [] => [[c]]
        | first :: others => (c :: first) :: others

def rooted (path : Bytes) : Bool := path.head? == some slash

def step (d : Location) (c : Bytes) : Location :=
  if c == [] || c == [dot] then d
  else if c == [dot, dot] then d.dropLast
  else d ++ [c]

def resolve (cwd : Location) (path : Bytes) : Location :=
  (components path).foldl step (if rooted path then [] else cwd)

/-- One component of `Clean`: parents are taken away as long as there is a name to take. -/
def cleanStep (isRooted : Bool) (d : List Bytes) (c : Bytes) : List Bytes :=
  if c == [] || c == [dot] then d
  else if c == [dot, dot] then
    match d.getLast? with
    | none => if isRooted then [] else [c]
    | some last => if last == [dot, dot] then d ++ [c] else d.dropLast
  else d ++ [c]

def clean (path : Bytes) : Bytes :=
  let parts := (components path).foldl (cleanStep (rooted path)) []
  let body := [slash].intercalate parts
  if rooted path then slash :: body
  else if body == [] then [dot]
  else body

/-- `Join` of two elements. -/
def join (directory name : Bytes) : Bytes :=
  if directory != [] then clean (directory ++ slash :: name)
  else if name != [] then clean name
  else []

/-- The part after the last slash. -/
def afterLastSlash (path : Bytes) : Bytes := (path.reverse.takeWhile (· != slash)).reverse

def base (path : Bytes) : Bytes :=
  if path == [] then [dot]
  else
    let trimmed := (path.reverse.dropWhile (· == slash)).reverse
    if trimmed == [] then [slash] else afterLastSlash trimmed

example : join (utf8 "/stage") (utf8 "agent.1/../../x") = utf8 "/x" := by decide

example : base (utf8 "/") = utf8 "/" := by decide

section Resolution

variable {path suffix : Bytes}

theorem components_ne_nil (path : Bytes) : components path ≠ [] := by
  cases path with
  | nil => exact List.cons_ne_nil _ _
  | cons c rest =>
      rw [components]
      split
      · exact List.cons_ne_nil _ _
      · split <;> exact List.cons_ne_nil _ _

theorem components_of_not_mem (h : slash ∉ path) : components path = [path] := by
  induction path with
  | nil => rfl
  | cons c rest ih =>
      rw [List.mem_cons, not_or] at h
      rw [components, if_neg (by simpa using Ne.symm h.1), ih h.2]

/-- Text without a slash is put after the last component. -/
theorem components_append (h : slash ∉ suffix) (path : Bytes) :
    ∃ before last, components path = before ++ [last] ∧
      components (path ++ suffix) = before ++ [last ++ suffix] := by
  induction path with
  | nil => exact ⟨[], [], rfl, components_of_not_mem h⟩
  | cons c rest ih =>
      obtain ⟨before, last, hrest, happend⟩ := ih
      rw [List.cons_append, components, components, hrest, happend]
      by_cases hc : (c == slash) = true
      · rw [if_pos hc, if_pos hc]
        exact ⟨[] :: before, last, rfl, rfl⟩
      · rw [if_neg hc, if_neg hc]
        cases before with
        | nil => exact ⟨[], c :: last, rfl, rfl⟩
        | cons first others => exact ⟨(c :: first) :: others, last, rfl, rfl⟩

/-- A final slash adds an empty component. -/
theorem components_slash (path : Bytes) : components (path ++ [slash]) = components path ++ [[]] := by
  induction path with
  | nil => rfl
  | cons c rest ih =>
      rw [List.cons_append, components, components, ih]
      split
      · rfl
      · cases h : components rest with
        | nil => exact absurd h (components_ne_nil rest)
        | cons first others => rfl

theorem rooted_append (h : slash ∉ suffix) (path : Bytes) :
    rooted (path ++ suffix) = rooted path := by
  cases path with
  | cons c rest => rfl
  | nil =>
      cases suffix with
      | nil => rfl
      | cons c rest =>
          rw [List.mem_cons, not_or] at h
          simpa [rooted] using Ne.symm h.1

/-- A suffix without a slash changes the last step only. -/
theorem resolve_append (h : slash ∉ suffix) (cwd : Location) (path : Bytes) :
    ∃ d last, resolve cwd path = step d last ∧
      resolve cwd (path ++ suffix) = step d (last ++ suffix) := by
  obtain ⟨before, last, hpath, happend⟩ := components_append h path
  refine ⟨before.foldl step (if rooted path then [] else cwd), last, ?_, ?_⟩
  · rw [resolve, hpath, List.foldl_append]
    rfl
  · rw [resolve, happend, rooted_append h, List.foldl_append]
    rfl

/-- A component that is neither empty nor one of dots. -/
def plain (c : Bytes) : Bool := c != [] && c != [dot] && c != [dot, dot]

theorem step_plain {c : Bytes} (h : plain c = true) (d : Location) : step d c = d ++ [c] := by
  simp only [plain, Bool.and_eq_true, bne_iff_ne, ne_eq] at h
  simp [step, h]

theorem step_empty (d : Location) : step d [] = d := rfl

theorem step_cases (d : Location) (c : Bytes) :
    step d c = d ∨ step d c = d.dropLast ∨ step d c = d ++ [c] := by
  rw [step]
  split
  · exact Or.inl rfl
  · split
    · exact Or.inr (Or.inl rfl)
    · exact Or.inr (Or.inr rfl)

/-- Three bytes and more make a plain component. -/
theorem plain_of_length {c : Bytes} (h : 2 < c.length) : plain c = true := by
  simp only [plain, Bool.and_eq_true, bne_iff_ne, ne_eq]
  refine ⟨⟨?_, ?_⟩, ?_⟩ <;> rintro rfl <;> simp at h

/-- A path with a longer last component names another file. -/
theorem resolve_append_ne (h : slash ∉ suffix) (hlong : 2 < suffix.length) (cwd : Location)
    (path : Bytes) : resolve cwd (path ++ suffix) ≠ resolve cwd path := by
  obtain ⟨d, last, hpath, happend⟩ := resolve_append h cwd path
  have hplain : plain (last ++ suffix) = true :=
    plain_of_length (by rw [List.length_append]; omega)
  rw [hpath, happend, step_plain hplain]
  intro heq
  obtain hstep | hstep | hstep := step_cases d last <;> rw [hstep] at heq
  · simpa using congrArg List.length heq
  · have hlength := congrArg List.length heq
    rw [List.length_append, List.length_dropLast, List.length_singleton] at hlength
    omega
  · rw [List.append_cancel_left_eq, List.cons.injEq] at heq
    have hlength := congrArg List.length heq.1
    rw [List.length_append] at hlength
    omega

/-- The last component of a path with a long suffix ends in the suffix. -/
theorem resolve_append_last (h : slash ∉ suffix) (hlong : 2 < suffix.length) (cwd : Location)
    (path : Bytes) : ∃ d last, resolve cwd (path ++ suffix) = d ++ [last ++ suffix] := by
  obtain ⟨d, last, -, happend⟩ := resolve_append h cwd path
  exact ⟨d, last, by rw [happend, step_plain (plain_of_length (by simp; omega))]⟩

theorem resolve_slash (hne : path ≠ []) (cwd : Location) :
    resolve cwd (path ++ [slash]) = resolve cwd path := by
  have hrooted : rooted (path ++ [slash]) = rooted path := by
    cases path with
    | nil => exact absurd rfl hne
    | cons c rest => rfl
  rw [resolve, resolve, components_slash, hrooted, List.foldl_append]
  rfl

/-- A name in a directory that is written with a final slash. -/
theorem resolve_name {directory name : Bytes} (hname : slash ∉ name) (hplain : plain name = true)
    (cwd : Location) : resolve cwd (directory ++ [slash] ++ name) =
      resolve cwd (directory ++ [slash]) ++ [name] := by
  have hrooted := rooted_append hname (directory ++ [slash])
  obtain ⟨before, last, hpath, happend⟩ := components_append hname (directory ++ [slash])
  obtain ⟨rfl, hlast⟩ := List.append_inj' (hpath.symm.trans (components_slash directory)) rfl
  obtain rfl : last = [] := by simpa using hlast
  rw [resolve, resolve, hrooted, hpath, happend, List.foldl_append, List.foldl_append,
    List.foldl_cons, List.foldl_cons, List.foldl_nil, List.foldl_nil, List.nil_append, step_empty,
    step_plain hplain]

end Resolution

section Cleaning

/-- The components that `Clean` keeps: names, and parents that there is no name for. -/
def kept (c : Bytes) : Prop := slash ∉ c ∧ (c = [dot, dot] ∨ plain c = true)

theorem kept.ne_nil {c : Bytes} (h : kept c) : c ≠ [] := by
  rintro rfl
  obtain ⟨-, h | h⟩ := h <;> cases h

theorem components_slash_free (path : Bytes) : ∀ c ∈ components path, slash ∉ c := by
  induction path with
  | nil => simp [components]
  | cons b rest ih =>
      rw [components]
      split
      · intro c hc
        rw [List.mem_cons] at hc
        obtain rfl | hc := hc
        · exact List.not_mem_nil
        · exact ih c hc
      · next hb =>
          cases hrest : components rest with
          | nil => exact absurd hrest (components_ne_nil rest)
          | cons first others =>
              rw [hrest] at ih
              intro c hc
              rw [List.mem_cons] at hc
              obtain rfl | hc := hc
              · rw [List.mem_cons, not_or]
                exact ⟨fun h => hb (by simpa using h.symm), ih first List.mem_cons_self⟩
              · exact ih c (List.mem_cons_of_mem first hc)

theorem cleanStep_kept {isRooted : Bool} {d : List Bytes} {c : Bytes} (hd : ∀ x ∈ d, kept x)
    (hc : slash ∉ c) : ∀ x ∈ cleanStep isRooted d c, kept x := by
  rw [cleanStep]
  split
  · exact hd
  · next hdot =>
      split
      · next hparent =>
          obtain rfl : c = [dot, dot] := eq_of_beq hparent
          cases hlast : d.getLast? with
          | none =>
              dsimp only
              split
              · exact nofun
              · simpa using ⟨hc, Or.inl rfl⟩
          | some last =>
              dsimp only
              split
              · intro x hx
                rw [List.mem_append, List.mem_singleton] at hx
                obtain hx | rfl := hx
                · exact hd x hx
                · exact ⟨hc, Or.inl rfl⟩
              · exact fun x hx => hd x (List.dropLast_subset d hx)
      · next hparent =>
          intro x hx
          rw [List.mem_append, List.mem_singleton] at hx
          obtain hx | rfl := hx
          · exact hd x hx
          · refine ⟨hc, Or.inr ?_⟩
            simp only [Bool.or_eq_true, beq_iff_eq, not_or] at hdot hparent
            simp [plain, hdot, hparent]

/-- Cleaning a component and going there is going there. -/
theorem foldl_step_cleanStep {isRooted : Bool} {start : Location} (hstart : isRooted = true →
    start = []) {d : List Bytes} (hd : ∀ x ∈ d, kept x) (c : Bytes) :
    (cleanStep isRooted d c).foldl step start = step (d.foldl step start) c := by
  rw [cleanStep]
  split
  · next h => rw [step, if_pos h]
  · next hdot =>
      split
      · next hparent =>
          obtain rfl : c = [dot, dot] := eq_of_beq hparent
          have hup (e : Location) : step e [dot, dot] = e.dropLast := rfl
          cases hlast : d.getLast? with
          | none =>
              rw [List.getLast?_eq_none_iff] at hlast
              subst hlast
              dsimp only
              split
              · next h => rw [List.foldl_nil, hup, hstart h, List.dropLast_nil]
              · rfl
          | some last =>
              obtain ⟨before, rfl⟩ := List.getLast?_eq_some_iff.mp hlast
              dsimp only
              split
              · rw [List.foldl_append, List.foldl_cons, List.foldl_nil]
              · next hne =>
                  have hplain : plain last = true := by
                    obtain ⟨-, h | h⟩ := hd last (by simp)
                    · exact absurd h (by simpa using hne)
                    · exact h
                  rw [List.dropLast_concat, List.foldl_append, List.foldl_cons, List.foldl_nil,
                    step_plain hplain, hup, List.dropLast_concat]
      · rw [List.foldl_append, List.foldl_cons, List.foldl_nil]

theorem foldl_cleanStep {isRooted : Bool} {start : Location} (hstart : isRooted = true →
    start = []) (path : List Bytes) (hpath : ∀ c ∈ path, slash ∉ c) {d : List Bytes}
    (hd : ∀ x ∈ d, kept x) :
    (∀ x ∈ path.foldl (cleanStep isRooted) d, kept x) ∧
      (path.foldl (cleanStep isRooted) d).foldl step start =
        path.foldl step (d.foldl step start) := by
  induction path generalizing d with
  | nil => exact ⟨hd, rfl⟩
  | cons c rest ih =>
      rw [List.foldl_cons, List.foldl_cons, ← foldl_step_cleanStep hstart hd]
      exact ih (fun x hx => hpath x (List.mem_cons_of_mem c hx))
        (cleanStep_kept hd (hpath c List.mem_cons_self))

theorem components_cons_slash {c : Bytes} (hc : slash ∉ c) (rest : Bytes) :
    components (c ++ slash :: rest) = c :: components rest := by
  induction c with
  | nil => rfl
  | cons b others ih =>
      rw [List.mem_cons, not_or] at hc
      rw [List.cons_append, components, if_neg (by simpa using Ne.symm hc.1), ih hc.2]

theorem components_intercalate {parts : List Bytes} (hne : parts ≠ [])
    (hparts : ∀ c ∈ parts, slash ∉ c) : components ([slash].intercalate parts) = parts := by
  induction parts with
  | nil => exact absurd rfl hne
  | cons c rest ih =>
      have hc := hparts c List.mem_cons_self
      cases rest with
      | nil => rw [List.intercalate_singleton, components_of_not_mem hc]
      | cons next others =>
          rw [List.intercalate_cons_cons, List.append_assoc, List.singleton_append,
            components_cons_slash hc,
            ih (List.cons_ne_nil _ _) fun x hx => hparts x (List.mem_cons_of_mem c hx)]

theorem components_name {name : Bytes} (hname : slash ∉ name) (directory : Bytes) :
    components (directory ++ slash :: name) = components directory ++ [name] := by
  obtain ⟨before, last, hpath, happend⟩ := components_append hname (directory ++ [slash])
  obtain ⟨rfl, hlast⟩ := List.append_inj' (hpath.symm.trans (components_slash directory)) rfl
  obtain rfl : last = [] := by simpa using hlast
  rwa [List.append_assoc, List.singleton_append, List.nil_append] at happend

/-- What `Clean` leaves of a path that ends in a name. -/
theorem components_clean {directory name : Bytes} (hdirectory : directory ≠ [])
    (hname : slash ∉ name) (hplain : plain name = true) :
    ∃ before, (∀ start : Location, (rooted directory = true → start = []) →
        before.foldl step start = (components directory).foldl step start) ∧
      components (clean (directory ++ slash :: name)) = before ++ [name] ∧
      rooted (clean (directory ++ slash :: name)) = rooted directory := by
  have hrooted : rooted (directory ++ slash :: name) = rooted directory := by
    cases directory with
    | nil => exact absurd rfl hdirectory
    | cons c rest => rfl
  have hfold (start : Location) (hstart : rooted directory = true → start = []) :=
    foldl_cleanStep hstart (components directory) (components_slash_free directory) (d := []) nofun
  set parts := (components directory).foldl (cleanStep (rooted directory)) [] with hparts
  have hkept : ∀ x ∈ parts ++ [name], kept x := by
    intro x hx
    rw [List.mem_append, List.mem_singleton] at hx
    obtain hx | rfl := hx
    · exact (hfold [] fun _ => rfl).1 x hx
    · exact ⟨hname, Or.inr hplain⟩
  have hlast : cleanStep (rooted directory) parts name = parts ++ [name] := by
    simp only [plain, Bool.and_eq_true, bne_iff_ne, ne_eq] at hplain
    simp [cleanStep, hplain]
  have hbody : components ([slash].intercalate (parts ++ [name])) = parts ++ [name] :=
    components_intercalate (by simp) fun x hx => (hkept x hx).1
  have hnot : rooted ([slash].intercalate (parts ++ [name])) = false := by
    cases hb : [slash].intercalate (parts ++ [name]) with
    | nil => rfl
    | cons b rest =>
        rw [hb, components] at hbody
        by_cases hslash : (b == slash) = true
        · rw [if_pos hslash] at hbody
          have hempty := hkept [] (by rw [← hbody]; exact List.mem_cons_self)
          exact absurd rfl hempty.ne_nil
        · simpa [rooted] using hslash
  have hne : [slash].intercalate (parts ++ [name]) ≠ [] := by
    intro hb
    rw [hb] at hbody
    have hempty := hkept [] (by rw [← hbody]; exact List.mem_cons_self)
    exact hempty.ne_nil rfl
  rw [clean, components_name hname, hrooted, List.foldl_append, List.foldl_cons, List.foldl_nil,
    ← hparts, hlast]
  cases hr : rooted directory with
  | true =>
      refine ⟨[] :: parts, fun start hstart => ?_, ?_, rfl⟩
      · rw [hr] at hfold
        exact (hfold start hstart).2
      · rw [if_pos rfl, components, if_pos (by rfl), hbody, List.cons_append]
  | false =>
      refine ⟨parts, fun start hstart => ?_, ?_, ?_⟩
      · rw [hr] at hfold
        exact (hfold start hstart).2
      · rw [if_neg Bool.false_ne_true, if_neg (by simpa using hne), hbody]
      · rw [if_neg Bool.false_ne_true, if_neg (by simpa using hne), hnot]

/-- A name in a directory that it is joined to, with a suffix or without one. -/
theorem resolve_join {directory name suffix : Bytes} (hdirectory : directory ≠ [])
    (hname : slash ∉ name) (hplain : plain name = true) (hsuffix : slash ∉ suffix)
    (hlong : plain (name ++ suffix) = true) (cwd : Location) :
    resolve cwd (join directory name ++ suffix) = resolve cwd directory ++ [name ++ suffix] := by
  obtain ⟨before, hbefore, hcomponents, hrooted⟩ := components_clean hdirectory hname hplain
  have hjoin : join directory name = clean (directory ++ slash :: name) := by
    rw [join, if_pos (by simpa using hdirectory)]
  obtain ⟨before', last, hpath, happend⟩ :=
    components_append hsuffix (clean (directory ++ slash :: name))
  obtain ⟨rfl, hlast⟩ := List.append_inj' (hpath.symm.trans hcomponents) rfl
  obtain rfl : last = name := (List.cons.inj hlast).1
  rw [hjoin, resolve, happend, rooted_append hsuffix, hrooted, List.foldl_append, List.foldl_cons,
    List.foldl_nil, hbefore _ (fun h => if_pos h), step_plain hlong, ← resolve]

end Cleaning

section Directories

/-- `Dir`: what stands before the last name, cleaned. -/
def dir (path : Bytes) : Bytes := clean (path.reverse.dropWhile (· != slash)).reverse

/-- The parts of a path that `Clean` leaves as it is: parents first, and none from the root. -/
def Cleaned (isRooted : Bool) (parts : List Bytes) : Prop :=
  ∃ parents names, parts = List.replicate parents [dot, dot] ++ names ∧
    (isRooted = true → parents = 0) ∧ ∀ c ∈ names, plain c = true

variable {isRooted : Bool} {parts : List Bytes}

theorem cleanStep_plain {c : Bytes} (h : plain c = true) (d : List Bytes) :
    cleanStep isRooted d c = d ++ [c] := by
  simp only [plain, Bool.and_eq_true, bne_iff_ne, ne_eq] at h
  simp [cleanStep, h]

theorem Cleaned.cleanStep (h : Cleaned isRooted parts) (c : Bytes) :
    Cleaned isRooted (cleanStep isRooted parts c) := by
  obtain ⟨parents, names, rfl, hrooted, hnames⟩ := h
  by_cases hplain : plain c = true
  · rw [cleanStep_plain hplain, List.append_assoc]
    refine ⟨parents, names ++ [c], rfl, hrooted, ?_⟩
    simpa [or_imp, forall_and] using ⟨hnames, hplain⟩
  · rw [Path.cleanStep]
    split
    · exact ⟨parents, names, rfl, hrooted, hnames⟩
    · next hdot =>
        obtain rfl : c = [dot, dot] := by
          simp only [Bool.or_eq_true, beq_iff_eq, not_or] at hdot
          simp only [plain, Bool.and_eq_true, bne_iff_ne, ne_eq, not_and, not_not] at hplain
          exact hplain ⟨hdot.1, hdot.2⟩
        rw [if_pos (by rfl)]
        obtain rfl | ⟨before, last, rfl⟩ := List.eq_nil_or_concat names
        · rw [List.append_nil]
          cases parents with
          | zero =>
              dsimp only [List.replicate, List.getLast?_nil]
              split
              · exact ⟨0, [], rfl, fun _ => rfl, nofun⟩
              · next hnot => exact ⟨1, [], rfl, fun h => absurd h hnot, nofun⟩
          | succ parents =>
              rw [List.getLast?_replicate, if_neg (Nat.succ_ne_zero _)]
              dsimp only
              rw [if_pos (by rfl), ← List.replicate_succ']
              exact ⟨parents + 2, [], (List.append_nil _).symm,
                fun h => absurd (hrooted h) (Nat.succ_ne_zero _), nofun⟩
        · have hlast : plain last = true := hnames last (by simp)
          have hne : (last == [dot, dot]) = false := by
            simp only [plain, Bool.and_eq_true, bne_iff_ne] at hlast
            exact beq_eq_false_iff_ne.mpr hlast.2
          rw [List.concat_eq_append, ← List.append_assoc, List.getLast?_concat]
          dsimp only
          rw [hne, if_neg Bool.false_ne_true, List.dropLast_concat]
          exact ⟨parents, before, rfl, hrooted, fun c hc => hnames c (by simp [hc])⟩

theorem Cleaned.foldl (h : Cleaned isRooted parts) (path : List Bytes) :
    Cleaned isRooted (path.foldl (Path.cleanStep isRooted) parts) := by
  induction path generalizing parts with
  | nil => exact h
  | cons c rest ih => exact ih (h.cleanStep c)

/-- `Clean` goes through its own parts without a change. -/
theorem Cleaned.foldl_nil (h : Cleaned isRooted parts) :
    parts.foldl (Path.cleanStep isRooted) [] = parts := by
  obtain ⟨parents, names, rfl, hrooted, hnames⟩ := h
  have hup : (List.replicate parents [dot, dot]).foldl (Path.cleanStep isRooted) [] =
      List.replicate parents [dot, dot] := by
    induction parents with
    | zero => rfl
    | succ parents ih =>
        have hnot : isRooted = false := by
          by_contra h
          exact absurd (hrooted (by simpa using h)) (Nat.succ_ne_zero _)
        subst hnot
        rw [List.replicate_succ', List.foldl_append, ih (by simp), List.foldl_cons, List.foldl_nil,
          Path.cleanStep, if_neg (by decide), if_pos (by rfl), List.getLast?_replicate]
        cases parents with
        | zero => rfl
        | succ n => rfl
  rw [List.foldl_append, hup]
  generalize List.replicate parents [dot, dot] = d
  induction names generalizing d with
  | nil => exact (List.append_nil d).symm
  | cons c rest ih =>
      rw [List.foldl_cons, cleanStep_plain (hnames c List.mem_cons_self),
        ih (fun x hx => hnames x (List.mem_cons_of_mem c hx)), List.append_assoc,
        List.singleton_append]


theorem dir_append {path name : Bytes} (hname : slash ∉ name)
    (hpath : path = [] ∨ path.getLast? = some slash) : dir (path ++ name) = clean path := by
  have hdrop : (name.reverse ++ path.reverse).dropWhile (· != slash) = path.reverse := by
    rw [List.dropWhile_append_of_pos]
    · obtain rfl | hlast := hpath
      · rfl
      · obtain ⟨before, rfl⟩ := List.getLast?_eq_some_iff.mp hlast
        rw [List.reverse_append, List.reverse_singleton, List.singleton_append]
        exact List.dropWhile_cons_of_neg (by simp)
    · intro c hc
      rw [bne_iff_ne]
      rintro rfl
      exact hname (List.mem_reverse.mp hc)
  rw [dir, List.reverse_append, hdrop, List.reverse_reverse]

/-- Paths with the same parts after cleaning are cleaned to the same path. -/
theorem clean_congr {path path' : Bytes} (hrooted : rooted path = rooted path')
    (hparts : (components path).foldl (cleanStep (rooted path)) [] =
      (components path').foldl (cleanStep (rooted path')) []) : clean path = clean path' := by
  rw [clean, clean, hparts, hrooted]

theorem intercalate_concat {parts : List Bytes} (hne : parts ≠ []) (name : Bytes) :
    [slash].intercalate (parts ++ [name]) = [slash].intercalate parts ++ [slash] ++ name := by
  induction parts with
  | nil => exact absurd rfl hne
  | cons c rest ih =>
      cases rest with
      | nil => simp
      | cons next others =>
          rw [List.cons_append, List.cons_append, List.intercalate_cons_cons, ← List.cons_append,
            ih (List.cons_ne_nil _ _), List.intercalate_cons_cons]
          simp only [List.append_assoc]

/-- Parts that were cleaned, written as a directory. -/
theorem clean_written {isRooted : Bool} {parts : List Bytes} (hcleaned : Cleaned isRooted parts)
    (hkept : ∀ c ∈ parts, kept c) (hne : parts ≠ []) {path : Bytes}
    (hpath : path = (if isRooted then [slash] else []) ++ [slash].intercalate parts ++ [slash]) :
    rooted path = isRooted ∧ (components path).foldl (cleanStep isRooted) [] = parts := by
  have hbody := components_intercalate hne fun c hc => (hkept c hc).1
  have hempty (d : List Bytes) : Path.cleanStep isRooted d [] = d := rfl
  cases isRooted with
  | true =>
      obtain rfl : path = slash :: ([slash].intercalate parts ++ [slash]) := hpath
      refine ⟨rfl, ?_⟩
      rw [components, if_pos (by rfl), components_slash, hbody, List.foldl_cons, hempty,
        List.foldl_append, hcleaned.foldl_nil]
      rfl
  | false =>
      obtain rfl : path = [slash].intercalate parts ++ [slash] := hpath
      constructor
      · cases hb : [slash].intercalate parts with
        | nil =>
            rw [hb] at hbody
            exact absurd rfl (hkept [] (by rw [← hbody]; exact List.mem_cons_self)).ne_nil
        | cons b rest =>
            rw [hb, components] at hbody
            by_cases hslash : (b == slash) = true
            · rw [if_pos hslash] at hbody
              exact absurd rfl (hkept [] (by rw [← hbody]; exact List.mem_cons_self)).ne_nil
            · simpa [rooted] using hslash
      · rw [components_slash, hbody, List.foldl_append, hcleaned.foldl_nil]
        rfl

/-- A name that is joined to a directory is in it. -/
theorem dir_join {directory name : Bytes} (hdirectory : directory ≠ []) (hname : slash ∉ name)
    (hplain : plain name = true) : dir (join directory name) = clean directory := by
  have hrooted : rooted (directory ++ slash :: name) = rooted directory := by
    cases directory with
    | nil => exact absurd rfl hdirectory
    | cons c rest => rfl
  have hcleaned : Cleaned (rooted directory)
      ((components directory).foldl (cleanStep (rooted directory)) []) :=
    Cleaned.foldl ⟨0, [], rfl, fun _ => rfl, nofun⟩ (components directory)
  have hkept : ∀ c ∈ (components directory).foldl (cleanStep (rooted directory)) [], kept c :=
    (foldl_cleanStep (fun _ => rfl) (components directory) (components_slash_free directory)
      fun c hc => absurd hc List.not_mem_nil).1
  have hclean {path : Bytes} (hpath : rooted path = rooted directory ∧
      (components path).foldl (cleanStep (rooted directory)) [] =
        (components directory).foldl (cleanStep (rooted directory)) []) :
      clean path = clean directory := clean_congr hpath.1 (by rw [hpath.1, hpath.2])
  have hne : name ≠ [] := by
    rintro rfl
    cases hplain
  have hbody {parts : List Bytes} : [slash].intercalate (parts ++ [name]) ≠ [] := by
    by_cases hparts : parts = []
    · rwa [hparts, List.nil_append, List.intercalate_singleton]
    · rw [intercalate_concat hparts]
      exact List.append_ne_nil_of_right_ne_nil _ hne
  rw [join, if_pos (by simpa using hdirectory), clean, components_name hname, hrooted,
    List.foldl_append, List.foldl_cons, List.foldl_nil, cleanStep_plain hplain]
  generalize (components directory).foldl (cleanStep (rooted directory)) [] = parts at *
  have hwritten : (if rooted directory then slash :: [slash].intercalate (parts ++ [name])
      else if [slash].intercalate (parts ++ [name]) == [] then [dot]
      else [slash].intercalate (parts ++ [name])) =
      (if rooted directory then [slash] else []) ++ [slash].intercalate (parts ++ [name]) := by
    cases rooted directory with
    | true => rfl
    | false => rw [if_neg Bool.false_ne_true, if_neg (by simpa using hbody)]; rfl
  rw [hwritten]
  by_cases hparts : parts = []
  · rw [hparts, List.nil_append, List.intercalate_singleton]
    rw [hparts] at hclean
    cases hroot : rooted directory with
    | true =>
        rw [hroot] at hclean
        rw [if_pos rfl, dir_append hname (Or.inr rfl)]
        exact hclean ⟨rfl, rfl⟩
    | false =>
        rw [hroot] at hclean
        rw [if_neg Bool.false_ne_true, dir_append hname (Or.inl rfl)]
        exact hclean ⟨rfl, rfl⟩
  · rw [intercalate_concat hparts, ← List.append_assoc, ← List.append_assoc,
      dir_append hname (Or.inr List.getLast?_concat)]
    exact hclean (clean_written hcleaned hkept hparts rfl)

end Directories

end NodeScope.Lib.Path
