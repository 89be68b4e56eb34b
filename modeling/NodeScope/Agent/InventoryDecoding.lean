import Mathlib.Data.List.DropRight
import NodeScope.Agent.Collectors
import NodeScope.Lib.Json

/-!
# How `encoding/json` reads an inventory

The decoder compares names without regard to case, leaves fields alone for `null`, decodes a repeated
list into the elements that are there, and takes no name that the payload does not have. What it makes
of a value is also said without running it: which values name records loosely, and which records
these are.

## Implementation notes

A place of the slice outlives the list that it was written for, so what a record gets is the column of
members that stood in its place, list by list. `decodeContainers_eq_some` is the step that keeps this;
`decodePayload_eq_some_iff` is the run over the members of a payload.
-/

namespace NodeScope.Agent

open Lib Lib.Text

section Decoding

/-- The fields of a record. -/
inductive RecordField where
  | containerID
  | name
  | image
  | state
  | health
deriving DecidableEq

def recordFields : List RecordField := [.containerID, .name, .image, .state, .health]

/-- The name of a field in a record. -/
def RecordField.label : RecordField → String
  | .containerID => "containerId"
  | .name => "name"
  | .image => "image"
  | .state => "state"
  | .health => "health"

def InventoryProxyContainer.get (c : InventoryProxyContainer) : RecordField → String
  | .containerID => c.containerID
  | .name => c.name
  | .image => c.image
  | .state => c.state
  | .health => c.health

def InventoryProxyContainer.set (c : InventoryProxyContainer) (field : RecordField)
    (text : String) : InventoryProxyContainer :=
  match field with
  | .containerID => { c with containerID := text }
  | .name => { c with name := text }
  | .image => { c with image := text }
  | .state => { c with state := text }
  | .health => { c with health := text }

def InventoryProxyContainer.zero : InventoryProxyContainer := ⟨"", "", "", "", ""⟩

/-- The field that a name belongs to: names are compared without regard to case. -/
def fieldNamed (name : String) : Option RecordField :=
  recordFields.find? fun field => foldEqual (field.label.map Char.toLower) name

/-- A member of a record decoded into it; an unknown field and a value of another type are errors. -/
def decodeMember (c : InventoryProxyContainer) (member : String × Json.Value) :
    Option InventoryProxyContainer :=
  match fieldNamed member.1, member.2 with
  | some _, .null => some c
  | some field, .string text => some (c.set field text)
  | _, _ => none

def decodeRecord (c : InventoryProxyContainer) : Json.Value → Option InventoryProxyContainer
  | .null => some c
  | .object members => members.foldlM decodeMember c
  | _ => none

/-- The elements of a list, each decoded into what stands in its place. -/
def decodeElements : List InventoryProxyContainer → List Json.Value →
    Option (List InventoryProxyContainer)
  | _, [] => some []
  | memory, element :: rest => do
      let c ← decodeRecord (memory.headD .zero) element
      let cs ← decodeElements memory.tail rest
      some (c :: cs)

/-- A slice: its elements, and those that are left in its memory behind them. -/
structure ContainerSlice where
  elements : List InventoryProxyContainer
  behind : List InventoryProxyContainer

def decodeContainers (slice : ContainerSlice) : Json.Value → Option ContainerSlice
  | .null => some ⟨[], []⟩
  | .array [] => some ⟨[], []⟩
  | .array elements =>
      let memory := slice.elements ++ slice.behind
      (decodeElements memory elements).map fun decoded => ⟨decoded, memory.drop decoded.length⟩
  | _ => none

def decodePayloadMember (slice : ContainerSlice) (member : String × Json.Value) :
    Option ContainerSlice :=
  if foldEqual "containers" member.1 then decodeContainers slice member.2 else none

/-- `Decode` of the payload, which starts without containers. -/
def decodePayload : Json.Value → Option (List InventoryProxyContainer)
  | .null => some []
  | .object members =>
      (members.foldlM decodePayloadMember ⟨[], []⟩).map ContainerSlice.elements
  | _ => none

end Decoding

section Meaning

/-- A name of a field up to case. -/
def Names (field : RecordField) (name : String) : Prop :=
  foldEqual (field.label.map Char.toLower) name = true

instance (field : RecordField) (name : String) : Decidable (Names field name) :=
  inferInstanceAs (Decidable (_ = true))

/-- A member that names a field up to case, with a text or with `null`. -/
inductive LooseMember : String × Json.Value → Prop
  | text {field : RecordField} {name text : String} (h : Names field name) :
      LooseMember (name, .string text)
  | null {field : RecordField} {name : String} (h : Names field name) : LooseMember (name, .null)

inductive LooseRecord : Json.Value → Prop
  | null : LooseRecord .null
  | object {members : List (String × Json.Value)} (h : ∀ member ∈ members, LooseMember member) :
      LooseRecord (.object members)

inductive LooseList : Json.Value → Prop
  | null : LooseList .null
  | array {elements : List Json.Value} (h : ∀ element ∈ elements, LooseRecord element) :
      LooseList (.array elements)

/-- A value that names lists of records, up to case and as often as it likes. -/
inductive LoosePayload : Json.Value → Prop
  | null : LoosePayload .null
  | object {members : List (String × Json.Value)}
      (h : ∀ member ∈ members, foldEqual "containers" member.1 = true ∧ LooseList member.2) :
      LoosePayload (.object members)

/-- The texts that members give a field. -/
def texts (field : RecordField) (members : List (String × Json.Value)) : List String :=
  members.filterMap fun member =>
    match member.2 with
    | .string text => if Names field member.1 then some text else none
    | _ => none

/-- A record with members over it: a field has its last text, and is as it was without one. -/
def overlay (c : InventoryProxyContainer) (members : List (String × Json.Value)) :
    InventoryProxyContainer :=
  let last (field : RecordField) := (texts field members).getLast?.getD (c.get field)
  ⟨last .containerID, last .name, last .image, last .state, last .health⟩

def membersOf : Json.Value → List (String × Json.Value)
  | .object members => members
  | _ => []

def elementsOf : Json.Value → List Json.Value
  | .array elements => elements
  | _ => []

/-- The lists that a payload names behind the last one that is `null` or empty. -/
def listsOf (value : Json.Value) : List (List Json.Value) :=
  ((membersOf value).map fun member => elementsOf member.2).rtakeWhile fun list => !list.isEmpty

/-- The members that stand in one place of the lists. -/
def column (lists : List (List Json.Value)) (place : Nat) : List (String × Json.Value) :=
  lists.flatMap fun list => membersOf (list.getD place .null)

/-- The records that a payload names: as many as its last list has, each from what stands in its
place in all of them. -/
def denoted (value : Json.Value) : List InventoryProxyContainer :=
  (List.range ((listsOf value).getLast?.getD []).length).map fun place =>
    overlay .zero (column (listsOf value) place)

end Meaning

section Records

theorem fieldNamed_label : ∀ field : RecordField, fieldNamed field.label = some field := by
  intro field
  cases field <;> decide +kernel

theorem get_set (c : InventoryProxyContainer) (field other : RecordField) (text : String) :
    (c.set field text).get other = if other = field then text else c.get other := by
  cases field <;> cases other <;> rfl

theorem get_zero (field : RecordField) : InventoryProxyContainer.zero.get field = "" := by
  cases field <;> rfl

theorem ext_get {c d : InventoryProxyContainer} (h : ∀ field, c.get field = d.get field) :
    c = d := by
  obtain ⟨id, name, image, state, health⟩ := c
  obtain ⟨id', name', image', state', health'⟩ := d
  have hid : id = id' := h .containerID
  have hname : name = name' := h .name
  have himage : image = image' := h .image
  have hstate : state = state' := h .state
  have hhealth : health = health' := h .health
  rw [hid, hname, himage, hstate, hhealth]

theorem get_overlay (c : InventoryProxyContainer) (members : List (String × Json.Value))
    (field : RecordField) :
    (overlay c members).get field = (texts field members).getLast?.getD (c.get field) := by
  cases field <;> rfl

theorem overlay_nil (c : InventoryProxyContainer) : overlay c [] = c :=
  ext_get fun field => get_overlay c [] field

theorem overlay_append (c : InventoryProxyContainer) (first second : List (String × Json.Value)) :
    overlay c (first ++ second) = overlay (overlay c first) second := by
  apply ext_get
  intro field
  rw [get_overlay, get_overlay, get_overlay, texts, List.filterMap_append, List.getLast?_append,
    Option.getD_or]
  rfl

/-- The letters that a name is compared with. -/
theorem lower_label (field : RecordField) : field.label.map Char.toLower =
    match field with
    | .containerID => "containerid"
    | .name => "name"
    | .image => "image"
    | .state => "state"
    | .health => "health" := by
  cases field <;> decide +kernel

theorem length_of_foldEqual {letters name : String} (h : foldEqual letters name = true) :
    name.toList.length = letters.toList.length := by
  rw [foldEqual, Bool.and_eq_true, beq_iff_eq] at h
  exact h.1

/-- The two labels of one length differ in their first letter. -/
theorem not_state_of_image {name : String} (h : foldEqual "image" name = true) :
    foldEqual "state" name = false := by
  have himage : "image".toList = ['i', 'm', 'a', 'g', 'e'] := by decide
  have hstate : "state".toList = ['s', 't', 'a', 't', 'e'] := by decide
  rw [foldEqual, himage] at h
  rw [foldEqual, hstate]
  cases hname : name.toList with
  | nil => rfl
  | cons c tail =>
      rw [hname, List.zip_cons_cons, List.all_cons] at h
      have hc : c = 'i' ∨ c = 'I' := by
        simp only [foldsTo, Bool.and_eq_true, Bool.or_eq_true, beq_iff_eq] at h
        obtain ⟨-, ((hc | hc) | hc) | hc, -⟩ := h
        · exact Or.inl hc
        · exact Or.inr hc
        · exact absurd hc.1 (by decide)
        · exact absurd hc.1 (by decide)
      have hs : foldsTo 's' c = false := by
        obtain rfl | rfl := hc <;> decide
      rw [List.zip_cons_cons, List.all_cons, hs, Bool.false_and, Bool.and_false]

/-- No name belongs to two fields. -/
theorem names_unique {field other : RecordField} {name : String} (h : Names field name)
    (h' : Names other name) : field = other := by
  rw [Names, lower_label] at h h'
  have hlengths := (length_of_foldEqual h).symm.trans (length_of_foldEqual h')
  cases field <;> cases other <;> first | rfl | exact absurd hlengths (by decide) | skip
  · rw [not_state_of_image h] at h'
    cases h'
  · rw [not_state_of_image h'] at h
    cases h

theorem fieldNamed_eq_some_iff {field : RecordField} {name : String} :
    fieldNamed name = some field ↔ Names field name := by
  have hfound {field : RecordField} (h : fieldNamed name = some field) : Names field name := by
    rw [fieldNamed] at h
    exact (List.find?_eq_some_iff_append.mp h).1
  constructor
  · exact hfound
  · intro h
    have hmem : field ∈ recordFields := by cases field <;> decide
    have hsome : (fieldNamed name).isSome = true :=
      List.find?_isSome.mpr ⟨field, hmem, h⟩
    obtain ⟨other, hother⟩ := Option.isSome_iff_exists.mp hsome
    rw [hother, names_unique h (hfound hother)]

theorem overlay_text {field : RecordField} {name : String} (h : Names field name)
    (c : InventoryProxyContainer) (text : String) :
    overlay c [(name, .string text)] = c.set field text := by
  apply ext_get
  intro other
  rw [get_overlay, get_set, texts]
  by_cases hother : other = field
  · subst hother
    simp [h]
  · have hnot : ¬ Names other name := fun hnames => hother (names_unique hnames h)
    simp [hnot, hother]

theorem decodeMember_eq_some_iff {c decoded : InventoryProxyContainer}
    {member : String × Json.Value} :
    decodeMember c member = some decoded ↔ LooseMember member ∧ decoded = overlay c [member] := by
  obtain ⟨name, value⟩ := member
  constructor
  · intro h
    rw [decodeMember] at h
    split at h
    · rename_i field hfield hvalue
      obtain rfl := Option.some.inj h
      dsimp only at hfield hvalue
      rw [hvalue]
      exact ⟨.null (fieldNamed_eq_some_iff.mp hfield), (overlay_nil c).symm⟩
    · rename_i field text hfield hvalue
      obtain rfl := Option.some.inj h
      dsimp only at hfield hvalue
      have hnames := fieldNamed_eq_some_iff.mp hfield
      rw [hvalue]
      exact ⟨.text hnames, (overlay_text hnames c text).symm⟩
    · cases h
  · rintro ⟨hloose, rfl⟩
    cases hloose with
    | text hnames =>
        rw [decodeMember, fieldNamed_eq_some_iff.mpr hnames, overlay_text hnames]
    | null hnames =>
        rw [decodeMember, fieldNamed_eq_some_iff.mpr hnames]
        exact congrArg some (overlay_nil c).symm

/-- Members are decoded one over the other. -/
theorem decodeMembers_eq_some_iff {members : List (String × Json.Value)}
    {c decoded : InventoryProxyContainer} :
    members.foldlM decodeMember c = some decoded ↔
      (∀ member ∈ members, LooseMember member) ∧ decoded = overlay c members := by
  induction members generalizing c with
  | nil => simp [overlay_nil, eq_comm]
  | cons member rest ih =>
      rw [List.foldlM_cons, Option.bind_eq_bind, Option.bind_eq_some_iff, List.forall_mem_cons,
        ← List.singleton_append, overlay_append]
      constructor
      · rintro ⟨next, hnext, hrest⟩
        obtain ⟨hloose, rfl⟩ := decodeMember_eq_some_iff.mp hnext
        obtain ⟨hloose', rfl⟩ := ih.mp hrest
        exact ⟨⟨hloose, hloose'⟩, rfl⟩
      · rintro ⟨⟨hloose, hloose'⟩, rfl⟩
        exact ⟨_, decodeMember_eq_some_iff.mpr ⟨hloose, rfl⟩, ih.mpr ⟨hloose', rfl⟩⟩

theorem decodeRecord_eq_some_iff {c decoded : InventoryProxyContainer} {value : Json.Value} :
    decodeRecord c value = some decoded ↔
      LooseRecord value ∧ decoded = overlay c (membersOf value) := by
  constructor
  · intro h
    rw [decodeRecord.eq_def] at h
    split at h
    · obtain rfl := Option.some.inj h
      exact ⟨.null, (overlay_nil c).symm⟩
    · obtain ⟨hloose, heq⟩ := decodeMembers_eq_some_iff.mp h
      exact ⟨.object hloose, heq⟩
    · cases h
  · rintro ⟨hloose, rfl⟩
    cases hloose with
    | null => exact congrArg some (overlay_nil c).symm
    | object hmembers => exact decodeMembers_eq_some_iff.mpr ⟨hmembers, rfl⟩

end Records

section Places

/-- The elements of a list over what stood in their places. -/
def layer : List InventoryProxyContainer → List Json.Value → List InventoryProxyContainer
  | _, [] => []
  | memory, element :: rest =>
      overlay (memory.headD .zero) (membersOf element) :: layer memory.tail rest

@[simp]
theorem length_layer (memory : List InventoryProxyContainer) (elements : List Json.Value) :
    (layer memory elements).length = elements.length := by
  induction elements generalizing memory with
  | nil => rfl
  | cons element rest ih => rw [layer, List.length_cons, List.length_cons, ih]

theorem decodeElements_eq_some_iff {memory decoded : List InventoryProxyContainer}
    {elements : List Json.Value} :
    decodeElements memory elements = some decoded ↔
      (∀ element ∈ elements, LooseRecord element) ∧ decoded = layer memory elements := by
  induction elements generalizing memory decoded with
  | nil => simp [decodeElements, layer, eq_comm]
  | cons element rest ih =>
      simp only [decodeElements, Option.bind_eq_bind, Option.bind_eq_some_iff,
        decodeRecord_eq_some_iff, ih, layer, List.forall_mem_cons]
      constructor
      · rintro ⟨c, ⟨hloose, rfl⟩, cs, ⟨hloose', rfl⟩, h⟩
        exact ⟨⟨hloose, hloose'⟩, (Option.some.inj h).symm⟩
      · rintro ⟨⟨hloose, hloose'⟩, rfl⟩
        exact ⟨_, ⟨hloose, rfl⟩, _, ⟨hloose', rfl⟩, rfl⟩

/-- A place that a list reaches has its element over what stood there, and the others are as they
were. -/
theorem getD_layer (memory : List InventoryProxyContainer) (elements : List Json.Value)
    (place : Nat) :
    (layer memory elements ++ memory.drop elements.length).getD place .zero =
      overlay (memory.getD place .zero) (membersOf (elements.getD place .null)) := by
  induction elements generalizing memory place with
  | nil => exact (overlay_nil _).symm
  | cons element rest ih =>
      cases place with
      | zero => cases memory <;> rfl
      | succ place =>
          have htail : memory.tail.getD place .zero = memory.getD (place + 1) .zero := by
            cases memory <;> rfl
          rw [layer, List.cons_append, List.getD_cons_succ, List.getD_cons_succ, List.length_cons,
            ← List.drop_tail, ih, htail]

/-- What stands in the places of a slice, and how many of them it has, after these lists. -/
structure Places (slice : ContainerSlice) (lists : List (List Json.Value)) : Prop where
  place : ∀ place, (slice.elements ++ slice.behind).getD place .zero =
    overlay .zero (column lists place)
  length : slice.elements.length = (lists.getLast?.getD []).length

theorem places_nil : Places ⟨[], []⟩ [] :=
  ⟨fun _ => (overlay_nil _).symm, rfl⟩

/-- One list: an empty one takes the memory away, another one is laid over it. -/
theorem places_decodeContainers {slice : ContainerSlice} {lists : List (List Json.Value)}
    {value : Json.Value} (hplaces : Places slice lists) (hloose : LooseList value) :
    ∃ next, decodeContainers slice value = some next ∧
      Places next (if !(elementsOf value).isEmpty then lists ++ [elementsOf value] else []) := by
  cases hloose with
  | null => exact ⟨_, rfl, places_nil⟩
  | @array elements helements =>
      cases elements with
      | nil => exact ⟨_, rfl, places_nil⟩
      | cons element rest =>
          have hdecoded := decodeElements_eq_some_iff.mpr
            ⟨helements, (rfl : layer (slice.elements ++ slice.behind) _ = _)⟩
          have hnext : decodeContainers slice (.array (element :: rest)) =
              some ⟨layer (slice.elements ++ slice.behind) (element :: rest),
                (slice.elements ++ slice.behind).drop (element :: rest).length⟩ := by
            simp only [decodeContainers, hdecoded, Option.map_some, length_layer]
          refine ⟨_, hnext, fun place => ?_, ?_⟩
          · rw [getD_layer, hplaces.place, ← overlay_append]
            simp [column, elementsOf]
          · simp [elementsOf]

/-- The members of a payload, by induction on the last of them. -/
theorem places_decodeMembers {members : List (String × Json.Value)}
    (hloose : ∀ member ∈ members, foldEqual "containers" member.1 = true ∧ LooseList member.2) :
    ∃ slice, members.foldlM decodePayloadMember ⟨[], []⟩ = some slice ∧
      Places slice (listsOf (.object members)) := by
  induction members using List.reverseRecOn with
  | nil => exact ⟨_, rfl, places_nil⟩
  | append_singleton members member ih =>
      simp only [List.mem_append, List.mem_singleton] at hloose
      obtain ⟨hname, hlist⟩ := hloose member (Or.inr rfl)
      obtain ⟨slice, hslice, hplaces⟩ := ih fun member hmember => hloose member (Or.inl hmember)
      obtain ⟨next, hnext, hplaces⟩ := places_decodeContainers hplaces hlist
      refine ⟨next, ?_, ?_⟩
      · rw [List.foldlM_append, hslice, Option.bind_eq_bind, Option.bind_some, List.foldlM_cons,
          decodePayloadMember, if_pos hname, hnext]
        rfl
      · rw [listsOf, membersOf, List.map_append, List.map_singleton, List.rtakeWhile_concat]
        exact hplaces

theorem loose_of_decodeMembers {members : List (String × Json.Value)}
    {slice decoded : ContainerSlice}
    (h : members.foldlM decodePayloadMember slice = some decoded) :
    ∀ member ∈ members, foldEqual "containers" member.1 = true ∧ LooseList member.2 := by
  induction members generalizing slice with
  | nil => simp
  | cons member rest ih =>
      rw [List.foldlM_cons, Option.bind_eq_bind, Option.bind_eq_some_iff] at h
      obtain ⟨next, hnext, hrest⟩ := h
      refine List.forall_mem_cons.mpr ⟨?_, ih hrest⟩
      rw [decodePayloadMember] at hnext
      split at hnext
      · rename_i hname
        refine ⟨hname, ?_⟩
        rw [decodeContainers.eq_def] at hnext
        split at hnext
        · rename_i hvalue
          rw [hvalue]
          exact .null
        · rename_i hvalue
          rw [hvalue]
          exact .array (by simp)
        · rename_i elements _ hvalue
          obtain ⟨decoded, hdecoded, -⟩ := Option.map_eq_some_iff.mp hnext
          rw [hvalue]
          exact .array (decodeElements_eq_some_iff.mp hdecoded).1
        · cases hnext
      · cases hnext

theorem Places.elements_eq {slice : ContainerSlice} {value : Json.Value}
    (h : Places slice (listsOf value)) : slice.elements = denoted value := by
  have hplaces : slice.elements = (List.range slice.elements.length).map fun place =>
      (slice.elements ++ slice.behind).getD place .zero := by
    apply List.ext_getElem (by simp)
    intro place hplace _
    rw [List.getElem_map, List.getElem_range, List.getD_eq_getElem?_getD,
      List.getElem?_append_left hplace, List.getElem?_eq_getElem hplace, Option.getD_some]
  rw [hplaces, h.length, denoted]
  exact List.map_congr_left fun place _ => h.place place

/-- What `encoding/json` makes of a value: the records that it names, if it names records loosely. -/
theorem decodePayload_eq_some_iff {value : Json.Value}
    {containers : List InventoryProxyContainer} :
    decodePayload value = some containers ↔
      LoosePayload value ∧ containers = denoted value := by
  constructor
  · intro h
    rw [decodePayload.eq_def] at h
    split at h
    · obtain rfl := Option.some.inj h
      exact ⟨.null, rfl⟩
    · obtain ⟨slice, hslice, rfl⟩ := Option.map_eq_some_iff.mp h
      have hloose := loose_of_decodeMembers hslice
      obtain ⟨slice', hslice', hplaces⟩ := places_decodeMembers hloose
      obtain rfl := Option.some.inj (hslice.symm.trans hslice')
      exact ⟨.object hloose, hplaces.elements_eq⟩
    · cases h
  · rintro ⟨hloose, rfl⟩
    cases hloose with
    | null => rfl
    | object hmembers =>
        obtain ⟨slice, hslice, hplaces⟩ := places_decodeMembers hmembers
        rw [decodePayload, hslice, Option.map_some, hplaces.elements_eq]

end Places

end NodeScope.Agent
