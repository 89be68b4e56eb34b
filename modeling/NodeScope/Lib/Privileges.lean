import Mathlib.Data.List.Lattice
import Mathlib.Logic.Function.Basic
import Mathlib.Logic.Relation

/-!
# Privileges of a database schema

Roles with their memberships, the access lists of the tables and functions of one schema, row
security, and the statements that change them. Sessions take roles and issue statements one after
the other, in any order. A table may change in some run exactly if a session can take a role that
may write it, through a command, a function or the action of a foreign key.

## Implementation notes

A policy is for all commands and for all rows, and no role is a superuser. A function runs with the
rights of its owner; what it writes, and what a deletion does to other tables, is given from
outside. Sessions change no privileges: only an owner could.
-/

namespace NodeScope.Lib.Privileges

inductive Grantee (R : Type) where
  | everyone
  | role (r : R)
deriving DecidableEq

inductive Command where
  | select
  | insert
  | update
  | delete
deriving DecidableEq

/-- The objects that a statement names, or all of the schema. -/
inductive Objects (N : Type) where
  | all
  | named (names : List N)

structure TableEntry (R T : Type) where
  name : T
  owner : R
  grants : List (Grantee R × Command)
  rowSecurity : Bool
  policies : List (Grantee R)
deriving DecidableEq

structure FunctionEntry (R F : Type) where
  name : F
  owner : R
  grants : List (Grantee R)
deriving DecidableEq

/-- A schema, with the privileges that its owner's new objects are created with. -/
structure Catalog (R T F : Type) where
  owner : R
  usage : List (Grantee R)
  tables : List (TableEntry R T)
  functions : List (FunctionEntry R F)
  tableDefaults : List (Grantee R × Command)
  functionDefaults : List (Grantee R)

namespace Catalog

variable {R T F : Type} (c : Catalog R T F)

/-- A new table has the privileges of the defaults. -/
def newTable (t : T) : TableEntry R T := ⟨t, c.owner, c.tableDefaults, false, []⟩

@[simp] theorem newTable_owner (t : T) : (c.newTable t).owner = c.owner := rfl

@[simp] theorem newTable_grants (t : T) : (c.newTable t).grants = c.tableDefaults := rfl

/-- A new function can be executed by everyone besides: defaults of a schema take nothing away. -/
def newFunction (f : F) : FunctionEntry R F := ⟨f, c.owner, .everyone :: c.functionDefaults⟩

end Catalog

inductive Ddl (R T F : Type) where
  | createTable (t : T)
  | createFunction (f : F)
  | enableRowSecurity (t : T)
  | createPolicy (t : T) (grantees : List (Grantee R))
  | grantUsage (grantees : List (Grantee R))
  | revokeUsage (grantees : List (Grantee R))
  | grantTables (ts : Objects T) (commands : List Command) (grantees : List (Grantee R))
  | revokeTables (ts : Objects T) (grantees : List (Grantee R))
  | grantFunctions (fs : Objects F) (grantees : List (Grantee R))
  | revokeFunctions (fs : Objects F) (grantees : List (Grantee R))
  | defaultTables (commands : List Command) (grantees : List (Grantee R))
  | revokeDefaultTables (grantees : List (Grantee R))
  | defaultFunctions (grantees : List (Grantee R))
  | revokeDefaultFunctions (grantees : List (Grantee R))

section Statements

variable {R T F N : Type} [DecidableEq R] [DecidableEq T] [DecidableEq F] [DecidableEq N]

def Objects.has : Objects N → N → Bool
  | .all, _ => true
  | .named names, n => names.contains n

def grants (commands : List Command) (grantees : List (Grantee R)) : List (Grantee R × Command) :=
  grantees.flatMap fun g => commands.map fun c => (g, c)

def withoutGrantees (grantees : List (Grantee R)) (l : List (Grantee R)) : List (Grantee R) :=
  l.filter fun g => !grantees.contains g

def withoutGrants (grantees : List (Grantee R)) (l : List (Grantee R × Command)) :
    List (Grantee R × Command) :=
  l.filter fun p => !grantees.contains p.1

/-- An entry is added if none has its name. -/
def withNew {E : Type} (name : E → N) (e : E) (l : List E) : List E :=
  if l.any fun x => name x == name e then l else l ++ [e]

namespace Catalog

def mapTables (c : Catalog R T F) (ts : Objects T) (f : TableEntry R T → TableEntry R T) :
    Catalog R T F :=
  { c with tables := c.tables.map fun e => if ts.has e.name then f e else e }

def mapFunctions (c : Catalog R T F) (fs : Objects F) (f : FunctionEntry R F → FunctionEntry R F) :
    Catalog R T F :=
  { c with functions := c.functions.map fun e => if fs.has e.name then f e else e }

/-- A statement of the owner. A function that is replaced keeps its privileges. -/
def exec (c : Catalog R T F) : Ddl R T F → Catalog R T F
  | .createTable t => { c with tables := withNew TableEntry.name (c.newTable t) c.tables }
  | .createFunction f =>
      { c with functions := withNew FunctionEntry.name (c.newFunction f) c.functions }
  | .enableRowSecurity t => c.mapTables (.named [t]) fun e => { e with rowSecurity := true }
  | .createPolicy t grantees =>
      c.mapTables (.named [t]) fun e => { e with policies := e.policies ++ grantees }
  | .grantUsage grantees => { c with usage := c.usage ∪ grantees }
  | .revokeUsage grantees => { c with usage := withoutGrantees grantees c.usage }
  | .grantTables ts commands grantees =>
      c.mapTables ts fun e => { e with grants := e.grants ∪ grants commands grantees }
  | .revokeTables ts grantees =>
      c.mapTables ts fun e => { e with grants := withoutGrants grantees e.grants }
  | .grantFunctions fs grantees =>
      c.mapFunctions fs fun e => { e with grants := e.grants ∪ grantees }
  | .revokeFunctions fs grantees =>
      c.mapFunctions fs fun e => { e with grants := withoutGrantees grantees e.grants }
  | .defaultTables commands grantees =>
      { c with tableDefaults := c.tableDefaults ∪ grants commands grantees }
  | .revokeDefaultTables grantees =>
      { c with tableDefaults := withoutGrants grantees c.tableDefaults }
  | .defaultFunctions grantees => { c with functionDefaults := c.functionDefaults ∪ grantees }
  | .revokeDefaultFunctions grantees =>
      { c with functionDefaults := withoutGrantees grantees c.functionDefaults }

def execAll (c : Catalog R T F) (statements : List (Ddl R T F)) : Catalog R T F :=
  statements.foldl exec c

end Catalog

section Creation

variable {E : Type} {name : E → N}

theorem mem_withNew {e x : E} {l : List E} :
    x ∈ withNew name e l ↔ x ∈ l ∨ name e ∉ l.map name ∧ x = e := by
  have hany : (l.any fun y => name y == name e) = true ↔ name e ∈ l.map name := by simp
  rw [withNew]
  by_cases h : name e ∈ l.map name
  · rw [if_pos (hany.mpr h)]
    exact ⟨Or.inl, fun hx => hx.elim id fun hnew => absurd h hnew.1⟩
  · rw [if_neg (mt hany.mp h), List.mem_append, List.mem_singleton]
    exact or_congr_right ⟨fun hx => ⟨h, hx⟩, And.right⟩

/-- The entries after new ones, each made from its name. -/
theorem mem_foldl_withNew {entry : N → E} (hname : ∀ n, name (entry n) = n) {x : E} (ns : List N)
    (l : List E) : x ∈ ns.foldl (fun l n => withNew name (entry n) l) l ↔
      x ∈ l ∨ ∃ n ∈ ns, n ∉ l.map name ∧ x = entry n := by
  induction ns generalizing l with
  | nil => simp
  | cons n rest ih =>
      have hnames (m : N) : m ∈ (withNew name (entry n) l).map name ↔ m ∈ l.map name ∨ m = n := by
        simp only [List.mem_map, mem_withNew, hname]
        constructor
        · rintro ⟨y, hy | ⟨-, rfl⟩, rfl⟩
          · exact Or.inl ⟨y, hy, rfl⟩
          · exact Or.inr (hname n)
        · rintro (⟨y, hy, rfl⟩ | rfl)
          · exact ⟨y, Or.inl hy, rfl⟩
          · by_cases h : m ∈ l.map name
            · obtain ⟨y, hy, heq⟩ := List.mem_map.mp h
              exact ⟨y, Or.inl hy, heq⟩
            · exact ⟨entry m, Or.inr ⟨by simpa using h, rfl⟩, hname m⟩
      rw [List.foldl_cons, ih, mem_withNew, hname]
      simp only [hnames, List.mem_cons]
      constructor
      · rintro ((h | ⟨hn, rfl⟩) | ⟨m, hm, hnot, rfl⟩)
        · exact Or.inl h
        · exact Or.inr ⟨n, Or.inl rfl, hn, rfl⟩
        · exact Or.inr ⟨m, Or.inr hm, fun h => hnot (Or.inl h), rfl⟩
      · rintro (h | ⟨m, rfl | hm, hnot, rfl⟩)
        · exact Or.inl (Or.inl h)
        · exact Or.inl (Or.inr ⟨hnot, rfl⟩)
        · by_cases heq : m = n
          · subst heq
            exact Or.inl (Or.inr ⟨hnot, rfl⟩)
          · exact Or.inr ⟨m, hm, fun h => h.elim hnot heq, rfl⟩

/-- A statement that only creates an object. -/
def Ddl.Creates : Ddl R T F → Prop
  | .createTable _ => True
  | .createFunction _ => True
  | _ => False

def Ddl.newTable : Ddl R T F → Option T
  | .createTable t => some t
  | _ => none

def Ddl.newFunction : Ddl R T F → Option F
  | .createFunction f => some f
  | _ => none

/-- The new objects beside what was there. -/
theorem Catalog.execAll_eq {statements : List (Ddl R T F)} (h : ∀ s ∈ statements, s.Creates)
    (c : Catalog R T F) : c.execAll statements =
      { c with
        tables := (statements.filterMap Ddl.newTable).foldl
          (fun l t => withNew TableEntry.name (c.newTable t) l) c.tables
        functions := (statements.filterMap Ddl.newFunction).foldl
          (fun l f => withNew FunctionEntry.name (c.newFunction f) l) c.functions } := by
  induction statements generalizing c with
  | nil => rfl
  | cons s rest ih =>
      have hs := h s List.mem_cons_self
      have hrest := ih fun s hs => h s (List.mem_cons_of_mem _ hs)
      rw [Catalog.execAll, List.foldl_cons, ← Catalog.execAll, hrest]
      cases s with
      | createTable t => rfl
      | createFunction f => rfl
      | _ => exact absurd hs id

end Creation

end Statements

/-- Roles, each with the roles it is a member of. -/
structure Roles (R : Type) where
  memberships : List (R × R)
  inherits : R → Bool
  bypassesRowSecurity : R → Bool

section Access

variable {R T F : Type} (roles : Roles R) (c : Catalog R T F)

/-- The roles that a session of a login can take. -/
def MayBecome (login r : R) : Prop :=
  Relation.ReflTransGen (fun member group => (member, group) ∈ roles.memberships) login r

/-- The roles whose privileges a role has. -/
def Effective (r e : R) : Prop :=
  Relation.ReflTransGen
    (fun member group => roles.inherits member = true ∧ (member, group) ∈ roles.memberships) r e

def Held (r : R) (l : List (Grantee R)) : Prop :=
  .everyone ∈ l ∨ ∃ e, Effective roles r e ∧ .role e ∈ l

def MayUse (r : R) : Prop := Effective roles r c.owner ∨ Held roles r c.usage

def TableEntry.Grants (e : TableEntry R T) (r : R) (command : Command) : Prop :=
  Effective roles r e.owner ∨
    Held roles r ((e.grants.filter fun p => p.2 = command).map Prod.fst)

/-- The rows that row security leaves: all of them or none. -/
def TableEntry.Passes (e : TableEntry R T) (r : R) : Prop :=
  e.rowSecurity = false ∨ Effective roles r e.owner ∨ roles.bypassesRowSecurity r = true ∨
    Held roles r e.policies

/-- A command on a table that has the privilege and reaches its rows. -/
def MayCommand (r : R) (t : T) (command : Command) : Prop :=
  MayUse roles c r ∧ ∃ e ∈ c.tables, e.name = t ∧ e.Grants roles r command ∧ e.Passes roles r

def MayExecute (r : R) (f : F) : Prop :=
  MayUse roles c r ∧
    ∃ e ∈ c.functions, e.name = f ∧ (Effective roles r e.owner ∨ Held roles r e.grants)

/-- Where no group is a member itself, a role is connected with itself and its own groups only. -/
theorem reflTransGen_flat {p : R → R → Prop} (hflat : ∀ a b d, p a b → ¬ p b d) {r e : R} :
    Relation.ReflTransGen p r e ↔ e = r ∨ p r e := by
  constructor
  · intro h
    induction h with
    | refl => exact Or.inl rfl
    | tail _ hlast ih =>
        obtain rfl | hfirst := ih
        · exact Or.inr hlast
        · exact absurd hlast (hflat _ _ _ hfirst)
  · rintro (rfl | h)
    · exact Relation.ReflTransGen.refl
    · exact Relation.ReflTransGen.single h

variable {roles c} [DecidableEq R] [DecidableEq T] [DecidableEq F]
  {statements : List (Ddl R T F)}

theorem mayUse_execAll (h : ∀ s ∈ statements, s.Creates) {r : R} :
    MayUse roles (c.execAll statements) r ↔ MayUse roles c r := by
  rw [c.execAll_eq h]
  rfl

/-- A new table is for those whom the defaults name. -/
theorem mayCommand_execAll (h : ∀ s ∈ statements, s.Creates) {r : R} {t : T} {command : Command} :
    MayCommand roles (c.execAll statements) r t command ↔ MayCommand roles c r t command ∨
      .createTable t ∈ statements ∧ t ∉ c.tables.map TableEntry.name ∧ MayUse roles c r ∧
        (c.newTable t).Grants roles r command := by
  have hnew : t ∈ statements.filterMap Ddl.newTable ↔ .createTable t ∈ statements := by
    rw [List.mem_filterMap]
    constructor
    · rintro ⟨s, hs, ht⟩
      cases s <;> simp_all [Ddl.newTable]
    · exact fun hs => ⟨_, hs, rfl⟩
  have hname (u : T) : (c.newTable u).name = u := rfl
  rw [MayCommand, mayUse_execAll h, c.execAll_eq h, MayCommand]
  simp only [mem_foldl_withNew hname]
  constructor
  · rintro ⟨huse, e, he | ⟨u, hu, hnot, rfl⟩, rfl, hgrants, hpasses⟩
    · exact Or.inl ⟨huse, e, he, rfl, hgrants, hpasses⟩
    · exact Or.inr ⟨hnew.mp hu, hnot, huse, hgrants⟩
  · rintro (⟨huse, e, he, rfl, hgrants, hpasses⟩ | ⟨ht, hnot, huse, hgrants⟩)
    · exact ⟨huse, e, Or.inl he, rfl, hgrants, hpasses⟩
    · exact ⟨huse, _, Or.inr ⟨t, hnew.mpr ht, hnot, rfl⟩, rfl, hgrants, Or.inl rfl⟩

/-- A new function is for everyone who can name it. -/
theorem mayExecute_execAll (h : ∀ s ∈ statements, s.Creates) {r : R} {f : F} :
    MayExecute roles (c.execAll statements) r f ↔ MayExecute roles c r f ∨
      .createFunction f ∈ statements ∧ f ∉ c.functions.map FunctionEntry.name ∧
        MayUse roles c r := by
  have hnew : f ∈ statements.filterMap Ddl.newFunction ↔ .createFunction f ∈ statements := by
    rw [List.mem_filterMap]
    constructor
    · rintro ⟨s, hs, hf⟩
      cases s <;> simp_all [Ddl.newFunction]
    · exact fun hs => ⟨_, hs, rfl⟩
  have hname (g : F) : (c.newFunction g).name = g := rfl
  rw [MayExecute, mayUse_execAll h, c.execAll_eq h, MayExecute]
  simp only [mem_foldl_withNew hname]
  constructor
  · rintro ⟨huse, e, he | ⟨g, hg, hnot, rfl⟩, rfl, haccess⟩
    · exact Or.inl ⟨huse, e, he, rfl, haccess⟩
    · exact Or.inr ⟨hnew.mp hg, hnot, huse⟩
  · rintro (⟨huse, e, he, rfl, haccess⟩ | ⟨hf, hnot, huse⟩)
    · exact ⟨huse, e, Or.inl he, rfl, haccess⟩
    · exact ⟨huse, _, Or.inr ⟨f, hnew.mpr hf, hnot, rfl⟩, rfl, Or.inr (Or.inl List.mem_cons_self)⟩

end Access

/-- What a function writes and with which commands, and the tables that a deletion from a table
acts on. -/
structure Effects (T F : Type) where
  writes : F → List (T × Command)
  actions : T → List T

/-- The sessions' roles and what the tables hold. -/
structure State (R T D : Type) where
  current : Nat → R
  data : T → D

section Sessions

variable {R T F D : Type}

/-- The tables that a command on a table may change. -/
def Effects.Touches (effects : Effects T F) (write : T × Command) (t : T) : Prop :=
  match write.2 with
  | .select => False
  | .insert => t = write.1
  | .update => t = write.1
  | .delete => Relation.ReflTransGen (fun a b => b ∈ effects.actions a) write.1 t

variable (roles : Roles R) (c : Catalog R T F) (effects : Effects T F) (logins : Nat → R)

/-- A statement of a session that is not refused. -/
inductive Step : State R T D → State R T D → Prop where
  | setRole {s : State R T D} {i : Nat} {r : R} (h : MayBecome roles (logins i) r) :
      Step s { s with current := Function.update s.current i r }
  | resetRole {s : State R T D} (i : Nat) :
      Step s { s with current := Function.update s.current i (logins i) }
  | command {s : State R T D} {i : Nat} {t : T} {command : Command} {data : T → D}
      (h : MayCommand roles c (s.current i) t command)
      (hdata : ∀ u, ¬ effects.Touches (t, command) u → data u = s.data u) :
      Step s { s with data := data }
  | call {s : State R T D} {i : Nat} {f : F} {data : T → D}
      (h : MayExecute roles c (s.current i) f)
      (hdata : ∀ u, (∀ write ∈ effects.writes f, ¬ effects.Touches write u) → data u = s.data u) :
      Step s { s with data := data }

/-- Every interleaving of the statements of all sessions. -/
def Run : State R T D → State R T D → Prop := Relation.ReflTransGen (Step roles c effects logins)

/-- A role that may change a table. -/
def MayWrite (r : R) (t : T) : Prop :=
  (∃ u command, MayCommand roles c r u command ∧ effects.Touches (u, command) t) ∨
    ∃ f, MayExecute roles c r f ∧ ∃ write ∈ effects.writes f, effects.Touches write t

variable {roles c effects logins} {s s' : State R T D}

/-- A session stands in a role that it can take. -/
theorem Step.mayBecome (h : Step roles c effects logins s s')
    (hs : ∀ i, MayBecome roles (logins i) (s.current i)) :
    ∀ i, MayBecome roles (logins i) (s'.current i) := by
  cases h with
  | @setRole i r hr =>
      intro j
      by_cases hj : j = i
      · subst hj
        simpa using hr
      · simpa [Function.update_of_ne hj] using hs j
  | resetRole i =>
      intro j
      by_cases hj : j = i
      · subst hj
        simp only [Function.update_self]
        exact Relation.ReflTransGen.refl
      · simpa [Function.update_of_ne hj] using hs j
  | command => exact hs
  | call => exact hs

/-- A statement leaves a table that its role may not write. -/
theorem Step.data_eq (h : Step roles c effects logins s s') {t : T}
    (ht : ∀ i, ¬ MayWrite roles c effects (s.current i) t) : s'.data t = s.data t := by
  cases h with
  | setRole => rfl
  | resetRole => rfl
  | @command i u command data hmay hdata =>
      apply hdata
      intro htouch
      exact ht i (Or.inl ⟨u, command, hmay, htouch⟩)
  | @call i f data hmay hdata =>
      apply hdata
      intro write hwrite htouch
      exact ht i (Or.inr ⟨f, hmay, write, hwrite, htouch⟩)

theorem run_frame {data : T → D} (h : Run roles c effects logins ⟨logins, data⟩ s) {t : T}
    (ht : ∀ i r, MayBecome roles (logins i) r → ¬ MayWrite roles c effects r t) :
    s.data t = data t := by
  have hinvariant : (∀ i, MayBecome roles (logins i) (s.current i)) ∧ s.data t = data t := by
    induction h with
    | refl => exact ⟨fun i => Relation.ReflTransGen.refl, rfl⟩
    | tail _ hstep ih =>
        obtain ⟨hroles, hdata⟩ := ih
        exact ⟨hstep.mayBecome hroles,
          (hstep.data_eq fun i => ht i _ (hroles i)).trans hdata⟩
  exact hinvariant.2

/-- A table can change exactly if a session can take a role that may write it. -/
theorem changes_iff [DecidableEq T] [Nontrivial D] (data : T → D) (t : T) :
    (∃ s, Run roles c effects logins ⟨logins, data⟩ s ∧ s.data t ≠ data t) ↔
      ∃ i r, MayBecome roles (logins i) r ∧ MayWrite roles c effects r t := by
  constructor
  · rintro ⟨s, hrun, hne⟩
    by_contra hno
    push Not at hno
    exact hne (run_frame hrun hno)
  · rintro ⟨i, r, hbecome, hwrite⟩
    obtain ⟨value, hvalue⟩ := exists_ne (data t)
    have htaken : Step roles c effects logins (⟨logins, data⟩ : State R T D)
        ⟨Function.update logins i r, data⟩ := .setRole hbecome
    have hcurrent : (⟨Function.update logins i r, data⟩ : State R T D).current i = r :=
      Function.update_self i r logins
    have hother (u : T) (hu : u ≠ t) : Function.update data t value u = data u :=
      Function.update_of_ne hu value data
    have hwritten : Step roles c effects logins
        (⟨Function.update logins i r, data⟩ : State R T D)
        ⟨Function.update logins i r, Function.update data t value⟩ := by
      obtain ⟨u, command, hmay, htouch⟩ | ⟨f, hmay, write, hmem, htouch⟩ := hwrite
      · rw [← hcurrent] at hmay
        refine Step.command hmay ?_
        intro v hv
        exact hother v fun h => hv (h ▸ htouch)
      · rw [← hcurrent] at hmay
        refine Step.call hmay ?_
        intro v hv
        exact hother v fun h => hv write hmem (h ▸ htouch)
    refine ⟨_, (Relation.ReflTransGen.single htaken).tail hwritten, ?_⟩
    simpa using hvalue

end Sessions

end NodeScope.Lib.Privileges
