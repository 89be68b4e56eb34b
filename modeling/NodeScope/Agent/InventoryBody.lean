import Mathlib.Data.List.Forall2
import NodeScope.Agent.InventoryDecoding

/-!
# Which inventory bodies are accepted

`CollectContainerInventory` reads at most one byte more than 1 MiB of the body, decodes a value and
looks for another one. The bodies that it accepts without their being an inventory as a whole are
described here by what stands in them.

## Implementation notes

`Misread` says which records a body names, and in which way it is no inventory; neither the decoder
nor the loop over the records occurs in it. `decodePayload_eq_some_iff` and `acceptable_iff` connect
it to them.
-/

namespace NodeScope.Agent

open Lib Lib.Text Telemetry

section Body

def maxInventoryProxyResponse : Nat := 1048576

/-- The bytes of the body that are read. -/
def limitedBody (body : List UInt8) : List UInt8 := body.take (maxInventoryProxyResponse + 1)

/-- The two calls of `Decode`: the second one must find the end of what is read. -/
def decodeInventory (body : List UInt8) : Option (List InventoryProxyContainer) :=
  (Json.parse (limitedBody body)).bind decodePayload

/-- `CollectContainerInventory` for a response with status 200 and this body. -/
def collectInventoryBody (alerted : List String) (body : List UInt8) (observedAt : Int) :
    Option (List Sample × List ContainerInventory) :=
  collectContainerInventory alerted (.body (decodeInventory body)) observedAt

end Body

section Contract

/-- No escape in the text is half of a surrogate pair; `high` says that one was just read. -/
def pairedEscapes : Nat → Bool → List UInt8 → Bool
  | 0, high, _ => !high
  | _ + 1, high, [] => !high
  | fuel + 1, high, b :: rest =>
      match Json.leadingUnit (b :: rest) with
      | some unit =>
          if Json.isLowSurrogate unit then high && pairedEscapes fuel false (rest.drop 5)
          else !high && pairedEscapes fuel (Json.isHighSurrogate unit) (rest.drop 5)
      | none => !high && pairedEscapes fuel false (if b == 0x5c then rest.drop 1 else rest)

/-- The body is text as it stands: the reader has nothing to repair in it. -/
structure ExactText (body : List UInt8) : Prop where
  utf8 : (ofUtf8 body).isSome = true
  paired : pairedEscapes body.length false body = true

/-- A record as it was sent: it names fields by their names, each once, with the texts. -/
structure SentRecord (value : Json.Value) (c : InventoryProxyContainer) : Prop where
  sent : ∃ members, value = .object members ∧ (members.map Prod.fst).Nodup ∧
    (∀ member ∈ members, ∃ field : RecordField, member = (field.label, .string (c.get field))) ∧
    ∀ field : RecordField, field.label ∉ members.map Prod.fst → c.get field = ""

/-- An object without members or with the list of records only. -/
def SentPayload (value : Json.Value) (records : List InventoryProxyContainer) : Prop :=
  value = .object [] ∧ records = [] ∨
    ∃ elements, value = .object [("containers", .array elements)] ∧
      List.Forall₂ SentRecord elements records

structure WithinLimits (c : InventoryProxyContainer) : Prop where
  containerID : byteLength c.containerID ≤ 128
  name : byteLength c.name ≤ 256
  image : byteLength c.image ≤ 512
  state : byteLength c.state ≤ 64
  health : byteLength c.health ≤ 64

/-- The fields of a record in the inventory. -/
def inventoryRecord (c : ContainerInventory) : InventoryProxyContainer :=
  ⟨c.containerID, c.name, c.image, c.state, c.health⟩

/-- The body is an inventory as a whole, and this is its content. -/
structure Whole (body : List UInt8) (inventory : List ContainerInventory) : Prop where
  size : body.length ≤ maxInventoryProxyResponse
  text : ExactText body
  payload : ∃ value, Json.parse body = some value ∧
    SentPayload value (inventory.map inventoryRecord)
  count : inventory.length ≤ maxProxyContainers
  distinct : (inventory.map ContainerInventory.containerID).Nodup
  limits : ∀ c ∈ inventory, WithinLimits (inventoryRecord c)

/-- A record with each field named once, by its name and with a text. -/
def PlainRecord (value : Json.Value) : Prop :=
  ∃ members, value = .object members ∧ (members.map Prod.fst).Nodup ∧
    ∀ member ∈ members, ∃ (field : RecordField) (text : String),
      member = (field.label, .string text)

/-- An object that names its list of records once at most, by its name. -/
def PlainPayload (value : Json.Value) : Prop :=
  value = .object [] ∨ ∃ elements, value = .object [("containers", .array elements)] ∧
    ∀ element ∈ elements, PlainRecord element

/-- A record that is `null`, names a field in another case, twice, or with `null`. -/
inductive RespelledRecord : Json.Value → Prop
  | null : RespelledRecord .null
  | name {members : List (String × Json.Value)} {name : String} {value : Json.Value}
      (hmember : (name, value) ∈ members) (hname : ∀ field : RecordField, name ≠ field.label) :
      RespelledRecord (.object members)
  | repeated {members : List (String × Json.Value)} (h : ¬ (members.map Prod.fst).Nodup) :
      RespelledRecord (.object members)
  | nullField {members : List (String × Json.Value)} {name : String}
      (hmember : (name, .null) ∈ members) : RespelledRecord (.object members)

/-- A payload that is `null`, names its list in another case, twice, or with `null`, or has such a
record in it. -/
inductive Respelled : Json.Value → Prop
  | null : Respelled .null
  | name {members : List (String × Json.Value)} {name : String} {value : Json.Value}
      (hmember : (name, value) ∈ members) (hname : name ≠ "containers") :
      Respelled (.object members)
  | repeated {members : List (String × Json.Value)} (h : 2 ≤ members.length) :
      Respelled (.object members)
  | nullList {members : List (String × Json.Value)} {name : String}
      (hmember : (name, .null) ∈ members) : Respelled (.object members)
  | record {members : List (String × Json.Value)} {name : String} {elements : List Json.Value}
      {element : Json.Value} (hmember : (name, .array elements) ∈ members)
      (helement : element ∈ elements) (hrecord : RespelledRecord element) :
      Respelled (.object members)

/-- Records that an inventory may have. -/
structure Admissible (containers : List InventoryProxyContainer) : Prop where
  count : containers.length ≤ maxProxyContainers
  limits : ∀ c ∈ containers, WithinLimits c
  nonnull : ∀ c ∈ containers, ∀ field, '\x00' ∉ (c.get field).toList
  filled : ∀ c ∈ containers, ∀ field, field ≠ .health →
    ∃ letter ∈ (c.get field).toList, isSpace letter = false
  distinct : (containers.map InventoryProxyContainer.containerID).Nodup

/-- What is read of the body is a value that names admissible records, but the body is longer, or is
no exact text, or spells the records in another way. -/
def Misread (body : List UInt8) : Prop :=
  ∃ value, Json.parse (body.take (maxInventoryProxyResponse + 1)) = some value ∧
    LoosePayload value ∧ Admissible (denoted value) ∧
      (maxInventoryProxyResponse < body.length ∨ ¬ ExactText body ∨ Respelled value)

/-- Records that the loop accepts. -/
structure Acceptable (containers : List InventoryProxyContainer) : Prop where
  count : containers.length ≤ maxProxyContainers
  valid : ∀ c ∈ containers, c.validate = true
  distinct : (containers.map InventoryProxyContainer.containerID).Nodup

end Contract

section Records

/-- What decoding plain members leaves in a record, by induction on them: a named field has its text,
the others are as they were. -/
theorem get_of_decodeMembers {members : List (String × Json.Value)}
    {c decoded : InventoryProxyContainer} (h : members.foldlM decodeMember c = some decoded)
    (hnodup : (members.map Prod.fst).Nodup)
    (hplain : ∀ member ∈ members, ∃ (field : RecordField) (text : String),
      member = (field.label, .string text)) :
    (∀ member ∈ members, ∃ field : RecordField,
        member = (field.label, .string (decoded.get field))) ∧
      ∀ field : RecordField, field.label ∉ members.map Prod.fst →
        decoded.get field = c.get field := by
  induction members generalizing c with
  | nil =>
      obtain rfl := Option.some.inj h
      exact ⟨by simp, fun _ _ => rfl⟩
  | cons member rest ih =>
      obtain ⟨⟨field, text, rfl⟩, hrest⟩ := List.forall_mem_cons.mp hplain
      rw [List.map_cons, List.nodup_cons] at hnodup
      have hstep : decodeMember c (field.label, .string text) = some (c.set field text) := by
        rw [decodeMember, fieldNamed_label]
      rw [List.foldlM_cons, hstep, Option.bind_eq_bind, Option.bind_some] at h
      obtain ⟨hnamed, hothers⟩ := ih h hnodup.2 hrest
      constructor
      · intro member hmember
        obtain rfl | hmember := List.mem_cons.mp hmember
        · refine ⟨field, ?_⟩
          rw [hothers field hnodup.1, get_set, if_pos rfl]
        · exact hnamed member hmember
      · intro other hother
        rw [List.map_cons, List.mem_cons, not_or] at hother
        rw [hothers other hother.2, get_set, if_neg]
        rintro rfl
        exact hother.1 rfl

theorem sentRecord_of_plain {value : Json.Value} {c : InventoryProxyContainer}
    (h : decodeRecord .zero value = some c) (hplain : PlainRecord value) : SentRecord value c := by
  obtain ⟨members, rfl, hnodup, hmembers⟩ := hplain
  obtain ⟨hnamed, hothers⟩ := get_of_decodeMembers h hnodup hmembers
  refine ⟨members, rfl, hnodup, hnamed, fun field hfield => ?_⟩
  rw [hothers field hfield, get_zero]

theorem sentRecords_of_plain {elements : List Json.Value} {records : List InventoryProxyContainer}
    (h : decodeElements [] elements = some records)
    (hplain : ∀ element ∈ elements, PlainRecord element) :
    List.Forall₂ SentRecord elements records := by
  induction elements generalizing records with
  | nil =>
      obtain rfl := Option.some.inj h
      exact List.Forall₂.nil
  | cons element rest ih =>
      obtain ⟨hfirst, hrest⟩ := List.forall_mem_cons.mp hplain
      simp only [decodeElements, Option.bind_eq_bind, Option.bind_eq_some_iff, List.headD_nil,
        List.tail_nil] at h
      obtain ⟨c, hc, cs, hcs, h⟩ := h
      obtain rfl := Option.some.inj h
      exact List.Forall₂.cons (sentRecord_of_plain hc hfirst) (ih hcs hrest)

/-- A plain payload is decoded to the records that were sent. -/
theorem sentPayload_of_plain {value : Json.Value} {records : List InventoryProxyContainer}
    (h : decodePayload value = some records) (hplain : PlainPayload value) :
    SentPayload value records := by
  obtain rfl | ⟨elements, rfl, helements⟩ := hplain
  · left
    obtain rfl := Option.some.inj h
    exact ⟨rfl, rfl⟩
  · right
    refine ⟨elements, rfl, ?_⟩
    have hname : foldEqual "containers" "containers" = true := by decide +kernel
    have hslice : decodePayload (.object [("containers", .array elements)]) =
        (decodeContainers ⟨[], []⟩ (.array elements)).map ContainerSlice.elements := by
      simp only [decodePayload, List.foldlM_cons, List.foldlM_nil, decodePayloadMember, hname,
        if_true, Option.bind_eq_bind, Option.pure_def, Option.bind_fun_some]
    rw [hslice] at h
    cases elements with
    | nil =>
        obtain rfl := Option.some.inj h
        exact List.Forall₂.nil
    | cons element rest =>
        simp only [decodeContainers, List.append_nil, Option.map_map] at h
        obtain ⟨decoded, hdecoded, rfl⟩ := Option.map_eq_some_iff.mp h
        exact sentRecords_of_plain hdecoded helements

theorem SentRecord.plain {value : Json.Value} {c : InventoryProxyContainer}
    (h : SentRecord value c) : PlainRecord value := by
  obtain ⟨members, rfl, hnodup, hnamed, -⟩ := h.sent
  refine ⟨members, rfl, hnodup, fun member hmember => ?_⟩
  obtain ⟨field, hfield⟩ := hnamed member hmember
  exact ⟨field, _, hfield⟩

theorem plain_of_sentRecords {elements : List Json.Value} {records : List InventoryProxyContainer}
    (h : List.Forall₂ SentRecord elements records) :
    ∀ element ∈ elements, PlainRecord element := by
  induction h with
  | nil => simp
  | cons hfirst _ ih => exact List.forall_mem_cons.mpr ⟨hfirst.plain, ih⟩

theorem PlainRecord.not_respelled {value : Json.Value} (h : PlainRecord value) :
    ¬ RespelledRecord value := by
  obtain ⟨members, rfl, hnodup, hplain⟩ := h
  intro hrespelled
  cases hrespelled with
  | name hmember hname =>
      obtain ⟨field, text, heq⟩ := hplain _ hmember
      exact hname field (Prod.mk.inj heq).1
  | repeated h => exact h hnodup
  | nullField hmember =>
      obtain ⟨field, text, heq⟩ := hplain _ hmember
      cases (Prod.mk.inj heq).2

theorem LooseRecord.plain {value : Json.Value} (h : LooseRecord value)
    (hspelled : ¬ RespelledRecord value) : PlainRecord value := by
  cases h with
  | null => exact absurd .null hspelled
  | @object members hloose =>
      refine ⟨members, rfl, not_not.mp fun h => hspelled (.repeated h), fun member hmember => ?_⟩
      cases hloose member hmember with
      | @text _ name text _ =>
          have hname : ∃ field : RecordField, name = field.label := by
            by_contra hnone
            exact hspelled (.name hmember fun field h => hnone ⟨field, h⟩)
          obtain ⟨field, rfl⟩ := hname
          exact ⟨field, text, rfl⟩
      | null _ => exact absurd (.nullField hmember) hspelled

/-- A payload is plain exactly if it is not spelled in another way. -/
theorem LoosePayload.plain_iff {value : Json.Value} (h : LoosePayload value) :
    PlainPayload value ↔ ¬ Respelled value := by
  constructor
  · intro hplain hrespelled
    obtain rfl | ⟨elements, rfl, helements⟩ := hplain
    · cases hrespelled with
      | name hmember _ => cases hmember
      | repeated h => cases h
      | nullList hmember => cases hmember
      | record hmember _ _ => cases hmember
    · cases hrespelled with
      | name hmember hname =>
          exact hname (Prod.mk.inj (List.mem_singleton.mp hmember)).1
      | repeated h => simp at h
      | nullList hmember => cases (Prod.mk.inj (List.mem_singleton.mp hmember)).2
      | record hmember helement hrecord =>
          cases (Prod.mk.inj (List.mem_singleton.mp hmember)).2
          exact (helements _ helement).not_respelled hrecord
  · intro hspelled
    cases h with
    | null => exact absurd .null hspelled
    | @object members hloose =>
        match members with
        | [] => exact Or.inl rfl
        | [(name, list)] =>
            obtain ⟨-, hlist⟩ := hloose _ List.mem_cons_self
            have hname : name = "containers" :=
              not_not.mp fun hne => hspelled (.name List.mem_cons_self hne)
            subst hname
            dsimp only at hlist
            cases hlist with
            | null => exact absurd (.nullList List.mem_cons_self) hspelled
            | @array elements helements =>
                exact Or.inr ⟨elements, rfl, fun element helement => (helements element helement).plain
                  fun hrecord => hspelled (.record List.mem_cons_self helement hrecord)⟩
        | _ :: _ :: _ => exact absurd (.repeated (by simp)) hspelled

theorem plain_of_sentPayload {value : Json.Value} {records : List InventoryProxyContainer}
    (h : SentPayload value records) : PlainPayload value := by
  obtain ⟨rfl, -⟩ | ⟨elements, rfl, hrecords⟩ := h
  · exact Or.inl rfl
  · exact Or.inr ⟨elements, rfl, plain_of_sentRecords hrecords⟩

end Records

section Acceptance

variable {alerted : List String} {body : List UInt8} {observedAt : Int}

/-- A body gives an inventory if it is decoded to acceptable records, which are its content. -/
theorem collectInventoryBody_eq_some {samples : List Sample} {inventory : List ContainerInventory} :
    collectInventoryBody alerted body observedAt = some (samples, inventory) ↔
      ∃ value containers, Json.parse (limitedBody body) = some value ∧
        decodePayload value = some containers ∧ Acceptable containers ∧
        inventory = containers.map (inventoryOf alerted) ∧
        samples = numericSample "containers" "container.inventory.available" "state"
          (Float64.ofNat 1) "inventory-proxy"
          "approved fixed-schema inventory proxy is available" observedAt ::
            inventory.flatMap (containerSamples observedAt) := by
  rw [collectInventoryBody]
  constructor
  · intro h
    cases hdecoded : decodeInventory body with
    | none =>
        rw [hdecoded] at h
        cases h
    | some containers =>
        rw [hdecoded] at h
        simp only [collectContainerInventory] at h
        split at h
        · cases h
        · next hcount =>
            obtain ⟨accepted, haccepted, heq⟩ := Option.map_eq_some_iff.mp h
            obtain ⟨hsamples, rfl⟩ := Prod.mk.inj heq
            obtain ⟨hvalid, hdistinct, rfl⟩ := acceptContainers_eq_some_iff.mp haccepted
            obtain ⟨value, hvalue, hpayload⟩ := Option.bind_eq_some_iff.mp hdecoded
            exact ⟨value, containers, hvalue, hpayload,
              ⟨Nat.le_of_not_lt hcount, fun c hc => (hvalid c hc).1, hdistinct⟩, rfl,
              hsamples.symm⟩
  · rintro ⟨value, containers, hvalue, hpayload, hacceptable, rfl, rfl⟩
    have hdecoded : decodeInventory body = some containers :=
      Option.bind_eq_some_iff.mpr ⟨value, hvalue, hpayload⟩
    have haccepted : acceptContainers alerted containers [] =
        some (containers.map (inventoryOf alerted)) :=
      acceptContainers_eq_some_iff.mpr
        ⟨fun c hc => ⟨hacceptable.valid c hc, List.not_mem_nil⟩, hacceptable.distinct, rfl⟩
    simp only [hdecoded, collectContainerInventory]
    rw [if_neg (Nat.not_lt.mpr hacceptable.count), haccepted]
    rfl

theorem inventoryRecord_of (alerted : List String) (containers : List InventoryProxyContainer) :
    (containers.map (inventoryOf alerted)).map inventoryRecord = containers := by
  rw [List.map_map]
  exact List.map_id _

theorem inventoryFieldValid_iff {value : String} {maximum : Nat} {optional : Bool} :
    inventoryFieldValid value maximum optional = true ↔
      byteLength value ≤ maximum ∧ '\x00' ∉ value.toList ∧
        (optional = false → ∃ letter ∈ value.toList, isSpace letter = false) := by
  have hblank : (trimSpace value != "") = true ↔
      ∃ letter ∈ value.toList, isSpace letter = false := by
    simp [bne_iff_ne, trimSpace_eq_empty_iff]
  simp only [inventoryFieldValid, Bool.and_eq_true, Bool.or_eq_true, hblank, decide_eq_true_eq,
    Bool.not_eq_true', List.contains_eq_mem, decide_eq_false_iff_not]
  cases optional with
  | false =>
      simp only [Bool.false_eq_true, false_or, true_implies]
      tauto
  | true =>
      simp only [true_or, true_and, Bool.true_eq_false, false_implies, and_true]

theorem validate_iff {c : InventoryProxyContainer} :
    c.validate = true ↔ WithinLimits c ∧ (∀ field, '\x00' ∉ (c.get field).toList) ∧
      ∀ field, field ≠ .health → ∃ letter ∈ (c.get field).toList, isSpace letter = false := by
  simp only [InventoryProxyContainer.validate, Bool.and_eq_true, inventoryFieldValid_iff,
    true_implies, Bool.true_eq_false, false_implies, and_true]
  constructor
  · rintro ⟨⟨⟨⟨hid, hname⟩, himage⟩, hstate⟩, hhealth⟩
    refine ⟨⟨hid.1, hname.1, himage.1, hstate.1, hhealth.1⟩, fun field => ?_, fun field hfield => ?_⟩
    · cases field with
      | containerID => exact hid.2.1
      | name => exact hname.2.1
      | image => exact himage.2.1
      | state => exact hstate.2.1
      | health => exact hhealth.2
    · cases field with
      | containerID => exact hid.2.2
      | name => exact hname.2.2
      | image => exact himage.2.2
      | state => exact hstate.2.2
      | health => exact absurd rfl hfield
  · rintro ⟨hlimits, hnull, hfilled⟩
    exact ⟨⟨⟨⟨⟨hlimits.containerID, hnull .containerID, hfilled .containerID (by decide)⟩,
      hlimits.name, hnull .name, hfilled .name (by decide)⟩,
      hlimits.image, hnull .image, hfilled .image (by decide)⟩,
      hlimits.state, hnull .state, hfilled .state (by decide)⟩, hlimits.health, hnull .health⟩

/-- The loop accepts what an inventory may have. -/
theorem acceptable_iff {containers : List InventoryProxyContainer} :
    Acceptable containers ↔ Admissible containers := by
  constructor
  · rintro ⟨hcount, hvalid, hdistinct⟩
    exact ⟨hcount, fun c hc => (validate_iff.mp (hvalid c hc)).1,
      fun c hc => (validate_iff.mp (hvalid c hc)).2.1,
      fun c hc => (validate_iff.mp (hvalid c hc)).2.2, hdistinct⟩
  · rintro ⟨hcount, hlimits, hnull, hfilled, hdistinct⟩
    exact ⟨hcount, fun c hc => validate_iff.mpr ⟨hlimits c hc, hnull c hc, hfilled c hc⟩, hdistinct⟩

theorem limitedBody_of_le (h : body.length ≤ maxInventoryProxyResponse) :
    limitedBody body = body :=
  List.take_of_length_le (Nat.le_succ_of_le h)

/-- What stands behind the bytes that are read makes no difference. -/
theorem collectInventoryBody_append (h : maxInventoryProxyResponse < body.length)
    (more : List UInt8) :
    collectInventoryBody alerted (body ++ more) observedAt =
      collectInventoryBody alerted body observedAt := by
  have hlimited : limitedBody (body ++ more) = limitedBody body := List.take_append_of_le_length h
  rw [collectInventoryBody, decodeInventory, hlimited]
  rfl

/-- A body is accepted as a whole only, exactly if it is not misread: nothing that names admissible
records up to its limit is too long, no exact text, or spelled in another way. -/
theorem accepted_whole_iff (alerted : List String) (body : List UInt8) (observedAt : Int) :
    (∀ samples inventory, collectInventoryBody alerted body observedAt = some (samples, inventory) →
        Whole body inventory) ↔ ¬ Misread body := by
  constructor
  · rintro h ⟨value, hvalue, hloose, hadmissible, hwrong⟩
    have hpayload := decodePayload_eq_some_iff.mpr ⟨hloose, rfl⟩
    have hwhole := h _ _ (collectInventoryBody_eq_some.mpr
      ⟨value, _, hvalue, hpayload, acceptable_iff.mpr hadmissible, rfl, rfl⟩)
    obtain hlong | htext | hrespelled := hwrong
    · exact Nat.not_lt.mpr hwhole.size hlong
    · exact htext hwhole.text
    · obtain ⟨sent, hsent, hrecords⟩ := hwhole.payload
      have hread : Json.parse (limitedBody body) = some value := hvalue
      rw [limitedBody_of_le hwhole.size, hsent] at hread
      obtain rfl := Option.some.inj hread
      exact hloose.plain_iff.mp (plain_of_sentPayload hrecords) hrespelled
  · intro h samples inventory hcollected
    obtain ⟨value, containers, hvalue, hpayload, hacceptable, rfl, -⟩ :=
      collectInventoryBody_eq_some.mp hcollected
    obtain ⟨hloose, rfl⟩ := decodePayload_eq_some_iff.mp hpayload
    have hadmissible := acceptable_iff.mp hacceptable
    have hright : ¬ (maxInventoryProxyResponse < body.length ∨ ¬ ExactText body ∨
        Respelled value) :=
      fun hwrong => h ⟨value, hvalue, hloose, hadmissible, hwrong⟩
    rw [not_or, not_or, not_lt, not_not, ← hloose.plain_iff] at hright
    obtain ⟨hsize, htext, hplain⟩ := hright
    rw [limitedBody_of_le hsize] at hvalue
    refine ⟨hsize, htext, ⟨value, hvalue, ?_⟩, ?_, ?_, ?_⟩
    · rw [inventoryRecord_of]
      exact sentPayload_of_plain hpayload hplain
    · rw [List.length_map]
      exact hadmissible.count
    · rw [List.map_map]
      exact hadmissible.distinct
    · intro c hc
      obtain ⟨container, hcontainer, rfl⟩ := List.mem_map.mp hc
      exact hadmissible.limits container hcontainer

/-- A record whose ID is a byte that is no text. -/
def strayBody : List UInt8 :=
  utf8 "\x7b\"containers\":[\x7b\"containerId\":\"" ++ 0xff ::
    utf8 "\",\"name\":\"n\",\"image\":\"i\",\"state\":\"s\"\x7d]\x7d"

/-- The body is accepted with a replacement character for the ID. -/
theorem strayBody_accepted :
    ∃ samples inventory, collectInventoryBody [] strayBody 0 = some (samples, inventory) ∧
      inventory = [⟨"\ufffd", "n", "i", "s", "", false⟩] ∧ ofUtf8 strayBody = none ∧
      ¬ Whole strayBody inventory := by
  have hutf8 : ofUtf8 strayBody = none := by decide +kernel
  have hcollected : (collectInventoryBody [] strayBody 0).map Prod.snd =
      some [⟨"\ufffd", "n", "i", "s", "", false⟩] := by decide +kernel
  obtain ⟨⟨samples, inventory⟩, hsome, heq⟩ := Option.map_eq_some_iff.mp hcollected
  refine ⟨samples, inventory, hsome, heq, hutf8, fun hwhole => ?_⟩
  have htext := hwhole.text.utf8
  rw [hutf8] at htext
  cases htext

end Acceptance

end NodeScope.Agent
