import NodeScope.Proxy.Metadata

/-!
# Two readers of one request

The handler chooses the route and the copy path from what Go decodes, and forwards the bytes as
they came. Go takes a member for a field whatever the case of its name and skips `null`, while a
backend that is strict about names takes the last member spelt exactly so. The two agree on the
bodies of which the last exact member also has the last word.
-/

namespace NodeScope.Proxy

open Lib Lib.Check Lib.Text Lib.Reader Lib.Json

/-- A flag that is missing or `null` is off. -/
def streamFlag : Option Value → Option Bool
  | none => some false
  | some .null => some false
  | some (.bool stream) => some stream
  | some _ => none

/-- A body as it is read with exact names, the last of which counts. -/
def readExactly (payload : List UInt8) : Option Metadata :=
  match parse payload with
  | some (.object members) =>
      match lastNamed "model" members, streamFlag (lastNamed "stream" members) with
      | some (.string model), some stream => some ⟨model, stream⟩
      | _, _ => none
  | _ => none

/-- The backends are asked for what was routed, and the events say so. -/
structure ReadAlike (metadata : Metadata) (effects : List Effect) : Prop where
  forwarded : ∀ contact ∈ contacts effects, readExactly contact.2.payload = some metadata
  recorded : ∀ contact ∈ contacts effects, ∀ event ∈ usageEvents effects,
    readExactly contact.2.payload = some ⟨event.model, event.streaming⟩

/-- The last `model` is a text, and no other spelling after it sets another value. -/
def UndividedModel (members : List (String × Value)) : Prop :=
  ∃ model, lastNamed "model" members = some (.string model) ∧
    ∀ value, lastSet "model" (afterNamed "model" members) = some value → value = .string model

/-- The last `stream` is a flag, and no other spelling after it sets another value; if there is
none or it is `null`, then no spelling turns the flag on. -/
def UndividedStream (members : List (String × Value)) : Prop :=
  match lastNamed "stream" members with
  | some (.bool stream) =>
      ∀ value, lastSet "stream" (afterNamed "stream" members) = some value → value = .bool stream
  | none | some .null => ∀ value, lastSet "stream" members = some value → value = .bool false
  | some _ => False

section Decoding

/-- What Go leaves in the two fields. -/
structure Decoded (members : List (String × Value)) (metadata : Metadata) : Prop where
  model : lastSet "model" members = none ∧ metadata.model = "" ∨
    lastSet "model" members = some (.string metadata.model)
  stream : lastSet "stream" members = none ∧ metadata.stream = false ∨
    lastSet "stream" members = some (.bool metadata.stream)

theorem not_stream_of_model {name : String} (h : nameMatches "model" name = true) :
    nameMatches "stream" name = false := by
  rw [nameMatches, foldEqual, Bool.and_eq_true] at h
  have hlength : name.toList.length = 5 := by simpa using h.1
  rw [nameMatches, foldEqual, hlength]
  rfl

theorem lastSet_concat (field : String) (members : List (String × Value))
    (member : String × Value) :
    lastSet field (members ++ [member]) =
      if nameMatches field member.1 && !member.2.isNull then some member.2
      else lastSet field members :=
  lastWhere_concat _ members member

/-- One more member keeps the account. -/
theorem Decoded.setMember {members : List (String × Value)} {metadata next : Metadata}
    (h : Decoded members metadata) {member : String × Value}
    (hnext : metadata.setMember member = some next) : Decoded (members ++ [member]) next := by
  obtain ⟨name, value⟩ := member
  rw [Metadata.setMember] at hnext
  split at hnext
  · next hmodel =>
      have hstream := not_stream_of_model hmodel
      cases value with
      | string model =>
          obtain rfl := Option.some.inj hnext
          refine ⟨Or.inr ?_, ?_⟩
          · simp [lastSet_concat, hmodel, Value.isNull]
          · simpa [lastSet_concat, hstream] using h.stream
      | null =>
          obtain rfl := Option.some.inj hnext
          refine ⟨?_, ?_⟩
          · simpa [lastSet_concat, Value.isNull] using h.model
          · simpa [lastSet_concat, hstream] using h.stream
      | _ => cases hnext
  · next hmodel =>
      split at hnext
      · next hstream =>
          cases value with
          | bool stream =>
              obtain rfl := Option.some.inj hnext
              refine ⟨?_, Or.inr ?_⟩
              · simpa [lastSet_concat, hmodel] using h.model
              · simp [lastSet_concat, hstream, Value.isNull]
          | null =>
              obtain rfl := Option.some.inj hnext
              refine ⟨?_, ?_⟩
              · simpa [lastSet_concat, hmodel] using h.model
              · simpa [lastSet_concat, Value.isNull] using h.stream
          | _ => cases hnext
      · next hstream =>
          obtain rfl := Option.some.inj hnext
          refine ⟨?_, ?_⟩
          · simpa [lastSet_concat, hmodel] using h.model
          · simpa [lastSet_concat, hstream] using h.stream

theorem decoded_of_foldlM {members : List (String × Value)} {metadata : Metadata}
    (h : members.foldlM Metadata.setMember ⟨"", false⟩ = some metadata) :
    Decoded members metadata := by
  induction members using List.reverseRecOn generalizing metadata with
  | nil =>
      obtain rfl := Option.some.inj h
      exact ⟨Or.inl ⟨rfl, rfl⟩, Or.inl ⟨rfl, rfl⟩⟩
  | append_singleton members member ih =>
      obtain ⟨before, hbefore, hnext⟩ := foldlM_concat_eq_some.mp h
      exact (ih hbefore).setMember hnext

/-- What is admitted is an object whose members have been decoded. -/
theorem decoded_of_readMetadata {payload : List UInt8} {metadata : Metadata}
    (h : readMetadata payload = some metadata) :
    ∃ members, parse payload = some (.object members) ∧ Decoded members metadata ∧
      lastSet "model" members = some (.string metadata.model) := by
  obtain ⟨hdecode, hblank⟩ := Option.filter_eq_some_iff.mp h
  obtain ⟨value, hparse, hvalue⟩ := Option.bind_eq_some_iff.mp hdecode
  have hnamed : metadata.model ≠ "" := by
    rintro hempty
    rw [hempty] at hblank
    exact absurd hblank (by decide)
  cases value with
  | object members =>
      have hdecoded := decoded_of_foldlM hvalue
      refine ⟨members, hparse, hdecoded, ?_⟩
      exact hdecoded.model.resolve_left fun hnone => hnamed hnone.2
  | null =>
      obtain rfl := Option.some.inj hvalue
      exact absurd rfl hnamed
  | _ => cases hvalue

end Decoding

section Agreement

variable {members : List (String × Value)} {metadata : Metadata}

theorem lastNamed_model_iff (hset : lastSet "model" members = some (.string metadata.model)) :
    lastNamed "model" members = some (.string metadata.model) ↔ UndividedModel members := by
  constructor
  · intro hnamed
    refine ⟨metadata.model, hnamed, fun value hvalue => ?_⟩
    have hlast := lastSet_of_lastNamed (by decide) rfl hnamed
    rw [hset, hvalue] at hlast
    exact (Option.some.inj hlast).symm
  · rintro ⟨model, hnamed, hafter⟩
    have hlast := lastSet_of_lastNamed (by decide) rfl hnamed
    rw [hset] at hlast
    cases hrest : lastSet "model" (afterNamed "model" members) with
    | none =>
        rw [hrest] at hlast
        rw [hnamed, Option.some.inj hlast]
        rfl
    | some value =>
        rw [hrest, hafter value hrest] at hlast
        rw [hnamed, Option.some.inj hlast]
        rfl

theorem streamFlag_iff (hdecoded : Decoded members metadata) :
    streamFlag (lastNamed "stream" members) = some metadata.stream ↔ UndividedStream members := by
  have hoff : some false = some metadata.stream ↔
      ∀ value, lastSet "stream" members = some value → value = .bool false := by
    obtain ⟨hnone, hstream⟩ | hset := hdecoded.stream
    · simp [hnone, hstream]
    · rw [hset]
      constructor
      · rintro hstream value ⟨⟩
        rw [← Option.some.inj hstream]
      · intro hoff
        obtain hstream := Value.bool.inj (hoff _ rfl)
        rw [hstream]
  rw [UndividedStream]
  cases hnamed : lastNamed "stream" members with
  | none => exact hoff
  | some value =>
      cases value with
      | null => exact hoff
      | bool stream =>
          have hlast := lastSet_of_lastNamed (by decide) rfl hnamed
          have hset : lastSet "stream" members = some (.bool metadata.stream) :=
            hdecoded.stream.resolve_left fun hnone => by simp [hnone.1] at hlast
          rw [hset] at hlast
          rw [streamFlag]
          cases hrest : lastSet "stream" (afterNamed "stream" members) with
          | none =>
              rw [hrest] at hlast
              have hsame := Value.bool.inj (Option.some.inj hlast)
              exact iff_of_true (by rw [hsame]) (by simp)
          | some last =>
              rw [hrest] at hlast
              obtain rfl : .bool metadata.stream = last := Option.some.inj hlast
              constructor
              · rintro hstream value ⟨⟩
                rw [Option.some.inj hstream]
              · intro hafter
                rw [Value.bool.inj (hafter _ rfl)]
      | _ => simp [streamFlag]

/-- Both readers find the same exactly when the last exact members have the last word. -/
theorem readExactly_iff {payload : List UInt8} (hparse : parse payload = some (.object members))
    (hdecoded : Decoded members metadata)
    (hset : lastSet "model" members = some (.string metadata.model)) :
    readExactly payload = some metadata ↔ UndividedModel members ∧ UndividedStream members := by
  rw [← lastNamed_model_iff hset, ← streamFlag_iff hdecoded, readExactly, hparse]
  obtain ⟨model, stream⟩ := metadata
  dsimp only
  constructor
  · intro hread
    split at hread
    · next hmodel hstream =>
        obtain ⟨rfl, rfl⟩ := Metadata.mk.inj (Option.some.inj hread)
        exact ⟨hmodel, hstream⟩
    · cases hread
  · rintro ⟨hmodel, hstream⟩
    rw [hmodel, hstream]

end Agreement

section Forwarded

variable (handler : Handler) (backends : Backends) (clock : Nat → Int) {request : Request}
variable {admitted : Admitted}

/-- Every backend gets the bytes that were decoded. -/
theorem payload_of_contact (hadmission : admission handler request = .ok admitted)
    {contact : Slot × BackendRequest}
    (hcontact : contact ∈ contacts (serveHTTP handler backends clock request)) :
    contact.2.payload = admitted.payload :=
  (failover_is_exact handler backends clock hadmission).payload contact hcontact

theorem event_of_admitted (hadmission : admission handler request = .ok admitted)
    {event : UsageEvent} (hevent : event ∈ usageEvents (serveHTTP handler backends clock request)) :
    event.model = admitted.metadata.model ∧ event.streaming = admitted.metadata.stream := by
  rw [(events_serveHTTP backends clock hadmission).1] at hevent
  obtain ⟨slot, status, hlabel⟩ := shown_label hevent
  exact ⟨congrArg Label.model hlabel, congrArg Label.streaming hlabel⟩

/-- Routing and forwarding read the same request exactly when its body is undivided. -/
theorem forwarded_readAlike_iff (hadmission : admission handler request = .ok admitted)
    (hforwarded : contacts (serveHTTP handler backends clock request) ≠ []) :
    ∃ members, parse admitted.payload = some (.object members) ∧
      (ReadAlike admitted.metadata (serveHTTP handler backends clock request) ↔
        UndividedModel members ∧ UndividedStream members) := by
  obtain ⟨-, -, -, -, -, -, -, hread, -⟩ := admission_eq_ok hadmission
  obtain ⟨members, hparse, hdecoded, hset⟩ := decoded_of_readMetadata hread
  refine ⟨members, hparse, ?_⟩
  rw [← readExactly_iff hparse hdecoded hset]
  constructor
  · rintro ⟨hall, -⟩
    obtain ⟨contact, hcontact⟩ := List.exists_mem_of_ne_nil _ hforwarded
    rw [← payload_of_contact handler backends clock hadmission hcontact]
    exact hall contact hcontact
  · intro hexact
    have hall : ∀ contact ∈ contacts (serveHTTP handler backends clock request),
        readExactly contact.2.payload = some admitted.metadata := by
      intro contact hcontact
      rw [payload_of_contact handler backends clock hadmission hcontact, hexact]
    refine ⟨hall, fun contact hcontact event hevent => ?_⟩
    obtain ⟨hmodel, hstream⟩ := event_of_admitted handler backends clock hadmission hevent
    rw [hall contact hcontact, hmodel, hstream]

end Forwarded

/-- A request with a body for the model of the route. -/
def bodyRequest (body : String) : Request :=
  { modelRequest with body := ⟨[utf8 body], .eof⟩ }

def admittedBody (body : String) (stream : Bool) : Admitted where
  clientID := "cli"
  payload := utf8 body
  metadata := ⟨"fallback-model", stream⟩
  route := ⟨"route-b", "fallback-model", "http://one", "", true⟩

/-- An older spelling before the exact one does no harm. -/
def respelledBody : String :=
  "\x7b\"Model\":\"other\",\"model\":\"fallback-model\",\"stream\":true\x7d"

theorem respelledBody_readAlike :
    ReadAlike ⟨"fallback-model", true⟩
      (serveHTTP ((oneRoute "http://one" "").handler true) (answering "leaf")
        (fun n => 1000000 * n) (bodyRequest respelledBody)) := by
  have hadmission : admission ((oneRoute "http://one" "").handler true)
      (bodyRequest respelledBody) = .ok (admittedBody respelledBody true) := rfl
  obtain ⟨members, hparse, hiff⟩ := forwarded_readAlike_iff
    ((oneRoute "http://one" "").handler true) (answering "leaf") (fun n => 1000000 * n) hadmission
    (by decide)
  have hmembers : parse (utf8 respelledBody) = some (.object
      [("Model", .string "other"), ("model", .string "fallback-model"),
        ("stream", .bool true)]) := rfl
  obtain rfl := Value.object.inj (Option.some.inj (hmembers.symm.trans hparse))
  refine hiff.mpr ⟨⟨"fallback-model", rfl, ?_⟩, ?_⟩
  · rintro value ⟨⟩
  · rintro value ⟨⟩

/-- A second spelling of the name after the exact one chooses the route, while the backend is
asked for another model. -/
def smugglingBody : String :=
  "\x7b\"model\":\"other\",\"Model\":\"fallback-model\"\x7d"

theorem smugglingBody_not_readAlike :
    admission ((oneRoute "http://one" "").handler true) (bodyRequest smugglingBody) =
        .ok (admittedBody smugglingBody false) ∧
      ¬ ReadAlike ⟨"fallback-model", false⟩
        (serveHTTP ((oneRoute "http://one" "").handler true) (answering "leaf")
          (fun n => 1000000 * n) (bodyRequest smugglingBody)) := by
  refine ⟨rfl, fun halike => ?_⟩
  have hother : ∃ contact ∈ contacts (serveHTTP ((oneRoute "http://one" "").handler true)
      (answering "leaf") (fun n => 1000000 * n) (bodyRequest smugglingBody)),
      readExactly contact.2.payload = some ⟨"other", false⟩ := by
    decide
  obtain ⟨contact, hcontact, hread⟩ := hother
  have hrouted := halike.forwarded contact hcontact
  rw [hread] at hrouted
  exact absurd hrouted (by decide)

end NodeScope.Proxy
