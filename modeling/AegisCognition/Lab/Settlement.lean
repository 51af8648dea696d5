import AegisCognition.Lab.Effect

/-!
# Settled admissions

In the log of every controller a record has one admission with its id and its object before
it, and no admission has two records. That the record repeats the members of its admission is
checked for experiments and tool calls. Browser actions, browser observations and research
programs leave it to the caller: they keep the law as long as every such record that is
accepted repeats the admission that it names.
-/

namespace Aegis.Lab

open Foundation Effect LabController Option

/-! ### The law -/

section Law

variable (c : LabController)

/-- The retained payload of an event. -/
def LabController.payloadObject (event : LabEvent) : Option JsonObject :=
  (c.payloads[event.sequence]?).bind Json.asObject

/-- The event is in the log, is of this kind and has this payload. -/
structure LabController.Brings (kind : LabEventKind) (event : LabEvent) (object : JsonObject) :
    Prop where
  mem : event ∈ c.runtime.events
  kind_eq : event.kind = kind
  payload : c.payloadObject event = some object

/-- Two payloads with the same admission id and the same object. -/
def Effect.SameEffect (e : Effect) (given object : JsonObject) : Prop :=
  ∃ admissionId objectId,
    (trimmedStr given "admission_id" = some admissionId ∧
      trimmedStr given e.objectId = some objectId) ∧
    trimmedStr object "admission_id" = some admissionId ∧
      trimmedStr object e.objectId = some objectId

/-- Two payloads that agree on the members that an admission and its record share. -/
def Effect.Agrees (e : Effect) (given object : JsonObject) : Prop :=
  (∀ key ∈ e.texts, trimmedStr given key = trimmedStr object key) ∧
    ∀ key ∈ e.numbers, given.u64? key = object.u64? key

/-- The record settles one earlier admission, repeats it, and is the only one to do so. -/
structure SettlesOne (e : Effect) (record : LabEvent) (object : JsonObject) : Prop where
  admission : ∃! admitted : LabEvent, admitted.sequence < record.sequence ∧
    ∃ given, c.Brings e.admitted admitted given ∧ e.SameEffect given object
  agrees : ∀ admitted given, c.Brings e.admitted admitted given →
    admitted.sequence < record.sequence → e.SameEffect given object → e.Agrees given object
  once : ∀ other object', c.Brings e.recorded other object' →
    trimmedStr object' "admission_id" = trimmedStr object "admission_id" → other = record

/-- Every record that came with a payload settles its own admission. -/
def EffectsSettled : Prop :=
  ∀ (e : Effect) (record : LabEvent) (object : JsonObject),
    c.Brings e.recorded record object → SettlesOne c e record object

/-- An accepted call that records an effect of which only the id was kept repeats the
admission that it names. -/
def RepeatsAdmission (externals : Externals) (call : Call) : Prop :=
  ∀ event payloadJson projectionState payload object,
    call = .admitProjectionRecord event payloadJson projectionState →
      externals.fromStr payloadJson = some payload → payload.asObject = some object →
        ∀ e : Effect, e.keepsTerms = false → event.kind = e.recorded →
          ∀ admitted given, c.Brings e.admitted admitted given → e.SameEffect given object →
            e.Agrees given object

end Law

/-! ### The accounts of the log -/

/-- What the log does to the accounts of an effect. -/
def Effect.postings (e : Effect) (c : LabController) : List (Option (Posting String Terms)) :=
  c.runtime.events.map fun event => (c.payloadObject event).bind (e.posting event.kind)

/-- The index says of every effect what the log says. -/
structure Tracked (c : LabController) : Prop where
  balanced : ∀ e : Effect, Balanced Terms.admissionId (e.postings c) (e.accounts c.index)
  stated : ∀ (e : Effect) (event : LabEvent) (object : JsonObject), event ∈ c.runtime.events →
    c.payloadObject event = some object → event.kind = e.admitted ∨ event.kind = e.recorded →
      ∃ key terms, trimmedStr object e.objectId = some key ∧ e.terms? object = some terms

section Moves

variable {externals : Externals} {c d : LabController} {event : LabEvent} {call : Call}
variable {e : Effect} {payload : Json} {projectionState : Option LabRunState}

namespace Appends

section

variable (h : Appends externals c d event) (logged : WellLogged c)
include h logged

theorem payloadObject_old {old : LabEvent} (mem : old ∈ c.runtime.events) :
    d.payloadObject old = c.payloadObject old := by
  rw [payloadObject, h.payload_eq logged mem, payloadObject]

theorem postings :
    e.postings d = e.postings c ++ [(d.payloadObject event).bind (e.posting event.kind)] := by
  simp only [Effect.postings, h.events, List.map_append, List.map_cons, List.map_nil]
  congr 1
  apply List.map_congr_left
  intro old mem
  rw [h.payloadObject_old logged mem]

/-- The log brings what it brought, and perhaps the new event. -/
theorem brings_iff {kind : LabEventKind} {other : LabEvent} {object : JsonObject} :
    d.Brings kind other object ↔ c.Brings kind other object ∨
      other = event ∧ event.kind = kind ∧ d.payloadObject event = some object := by
  constructor
  · rintro ⟨mem, kind_eq, read⟩
    rw [h.events, List.mem_append, List.mem_singleton] at mem
    obtain mem | rfl := mem
    · exact .inl ⟨mem, kind_eq, h.payloadObject_old logged mem ▸ read⟩
    · exact .inr ⟨rfl, kind_eq, read⟩
  · rintro (⟨mem, kind_eq, read⟩ | ⟨rfl, kind_eq, read⟩)
    · refine ⟨?_, kind_eq, (h.payloadObject_old logged mem).trans read⟩
      rw [h.events]
      exact List.mem_append_left _ mem
    · refine ⟨?_, kind_eq, read⟩
      rw [h.events]
      exact List.mem_append_right _ List.mem_cons_self

end

end Appends

theorem Bare.payloadObject (bare : Bare call c d event) (appends : Appends externals c d event)
    (logged : WellLogged c) : d.payloadObject event = none := by
  rw [LabController.payloadObject, bare.payloads, appends.sequence, logged.payload_next]
  rfl

theorem Admission.payloadObject (a : Admission externals c event payload projectionState) :
    a.result.payloadObject event = payload.asObject := by
  simp [LabController.payloadObject, Admission.result]

theorem Bare.tracked (bare : Bare call c d event) (appends : Appends externals c d event)
    (logged : WellLogged c) (h : Tracked c) : Tracked d := by
  have blank := bare.payloadObject appends logged
  refine ⟨fun e => ?_, fun e old object mem read about => ?_⟩
  · rw [appends.postings logged, blank, bare.index]
    exact (h.balanced e).idle
  · rw [appends.events, List.mem_append, List.mem_singleton] at mem
    obtain mem | rfl := mem
    · rw [appends.payloadObject_old logged mem] at read
      exact h.stated e old object mem read about
    · rw [blank] at read
      cases read

theorem Admission.tracked (a : Admission externals c event payload projectionState)
    (logged : WellLogged c) (h : Tracked c) : Tracked a.result := by
  obtain ⟨object, read, -⟩ := bind_eq_ok_iff.mp a.indexed
  rw [okOr_eq_ok_iff] at read
  have new := a.payloadObject.trans read
  refine ⟨fun e => ?_, fun e old object' mem found about => ?_⟩
  · rw [a.appends.postings logged, new]
    exact (h.balanced e).post (validateProjectionPayload_posts e read a.indexed).posts
  · rw [a.appends.events, List.mem_append, List.mem_singleton] at mem
    obtain mem | rfl := mem
    · rw [a.appends.payloadObject_old logged mem] at found
      exact h.stated e old object' mem found about
    · obtain rfl := Option.some.inj (new.symm.trans found)
      exact (validateProjectionPayload_posts e read a.indexed).stated about

theorem Move.tracked (move : Move externals call c d) (logged : WellLogged c) (h : Tracked c) :
    Tracked d := by
  obtain ⟨event, appends, bare | ⟨payload, projectionState, ⟨admitted⟩⟩⟩ := move.bare_or_admitted
  · exact bare.tracked appends logged h
  · exact admitted.result ▸ admitted.admission.tracked logged h

theorem accounts_empty : e.accounts .empty = ⟨fun _ => none, ∅⟩ := by
  cases e <;> simp [Effect.accounts, ProjectionIndex.empty]

theorem tracked_new {mission : LabMissionSpec} {start : LabController}
    (created : LabController.new externals mission = .ok start) : Tracked start := by
  obtain ⟨-, budget, -, rfl⟩ := new_ok created
  refine ⟨fun e => ?_, fun e event object mem read about => ?_⟩
  · exact accounts_empty ▸ Balanced.nil.idle
  · cases read

end Moves

/-! ### From the accounts to the law -/

section Places

variable {c : LabController} {e : Effect} {kind : LabEventKind} {event other : LabEvent}
variable {object given : JsonObject} {key : String} {terms : Terms}

/-- An event stands in the log of the accounts where it stands in the log. -/
theorem LabController.Brings.posting (h : c.Brings kind event object) (logged : WellLogged c) :
    ∃ i, event.sequence = i + 1 ∧ c.runtime.events[i]? = some event ∧
      (e.postings c)[i]? = some (e.posting kind object) := by
  obtain ⟨i, bound, rfl⟩ := List.mem_iff_getElem.mp h.mem
  refine ⟨i, logged.numbered i bound, List.getElem?_eq_getElem bound, ?_⟩
  simp [Effect.postings, bound, h.payload, h.kind_eq]

theorem Effect.grants (h : e.posting kind object = some (.grant key terms)) :
    kind = e.admitted ∧ trimmedStr object e.objectId = some key ∧
      e.terms? object = some terms := by
  simp only [Effect.posting, bind_eq_bind, bind_eq_some_iff] at h
  obtain ⟨key', named, terms', stated, h⟩ := h
  split at h
  · obtain ⟨rfl, rfl⟩ := Posting.grant.inj (Option.some.inj h)
    exact ⟨‹_›, named, stated⟩
  · split at h
    · cases h
    · cases h

/-- An admission of the accounts is one of the log. -/
theorem brings_of_grant (logged : WellLogged c) {i : Nat}
    (h : (e.postings c)[i]? = some (some (.grant key terms))) :
    ∃ admitted given, c.Brings e.admitted admitted given ∧ admitted.sequence = i + 1 ∧
      trimmedStr given e.objectId = some key ∧ e.terms? given = some terms := by
  simp only [Effect.postings, List.getElem?_map, map_eq_some_iff] at h
  obtain ⟨admitted, found, posts⟩ := h
  obtain ⟨given, read, posts⟩ := bind_eq_some_iff.mp posts
  obtain ⟨kind_eq, named, stated⟩ := Effect.grants posts
  obtain ⟨bound, rfl⟩ := List.getElem?_eq_some_iff.mp found
  exact ⟨_, given, ⟨List.getElem_mem bound, kind_eq, read⟩, logged.numbered i bound, named, stated⟩

theorem admissionId_of_terms (h : e.terms? object = some terms) :
    trimmedStr object "admission_id" = some terms.admissionId := by
  obtain ⟨admissionId, found, rfl⟩ := map_eq_some_iff.mp h
  exact found

/-- The accounts keep the members of an admission, so a record on the same terms agrees. -/
theorem agrees_of_terms (keeps : e.keepsTerms = true)
    (same : e.terms? given = e.terms? object) (stated : e.terms? object = some terms) :
    e.Agrees given object := by
  rw [stated] at same
  simp only [Effect.terms?, keeps, if_true, map_eq_some_iff] at same stated
  obtain ⟨admissionId, -, rfl⟩ := same
  obtain ⟨admissionId', -, stated⟩ := stated
  obtain ⟨-, texts, numbers⟩ := Terms.mk.inj stated
  exact ⟨fun key mem => (List.map_inj_left.mp texts key mem).symm,
    fun key mem => (List.map_inj_left.mp numbers key mem).symm⟩

section

variable (h : Tracked c)
include h

section

variable (logged : WellLogged c)
include logged

theorem Tracked.grant (brings : c.Brings e.admitted event object) :
    ∃ i key terms, event.sequence = i + 1 ∧ c.runtime.events[i]? = some event ∧
      (e.postings c)[i]? = some (some (.grant key terms)) ∧
      trimmedStr object e.objectId = some key ∧ e.terms? object = some terms := by
  obtain ⟨i, sequence, found, posts⟩ := brings.posting logged
  obtain ⟨key, terms, named, stated⟩ :=
    h.stated e event object brings.mem brings.payload (.inl brings.kind_eq)
  refine ⟨i, key, terms, sequence, found, posts.trans ?_, named, stated⟩
  simp [Effect.posting, named, stated]

theorem Tracked.settle (brings : c.Brings e.recorded event object) :
    ∃ i key terms, event.sequence = i + 1 ∧ c.runtime.events[i]? = some event ∧
      (e.postings c)[i]? = some (some (.settle key terms)) ∧
      trimmedStr object e.objectId = some key ∧ e.terms? object = some terms := by
  obtain ⟨i, sequence, found, posts⟩ := brings.posting logged
  obtain ⟨key, terms, named, stated⟩ :=
    h.stated e event object brings.mem brings.payload (.inr brings.kind_eq)
  refine ⟨i, key, terms, sequence, found, posts.trans ?_, named, stated⟩
  simp [Effect.posting, named, stated, recorded_ne_admitted]

theorem Tracked.admission_unique {object' : JsonObject} (first : c.Brings e.admitted event object)
    (second : c.Brings e.admitted other object')
    (same : trimmedStr object e.objectId = trimmedStr object' e.objectId) : event = other := by
  obtain ⟨i, key, terms, -, found, grants, named, -⟩ := h.grant logged first
  obtain ⟨j, key', terms', -, found', grants', named', -⟩ := h.grant logged second
  obtain rfl : key = key' := Option.some.inj (named.symm.trans (same.trans named'))
  obtain rfl : i = j := (h.balanced e).once i j key terms terms' grants grants'
  exact Option.some.inj (found.symm.trans found')

theorem Tracked.admission (brings : c.Brings e.recorded event object) :
    ∃ admitted given, c.Brings e.admitted admitted given ∧ admitted.sequence < event.sequence ∧
      e.SameEffect given object ∧ e.terms? given = e.terms? object := by
  obtain ⟨i, key, terms, sequence, -, settles, named, stated⟩ := h.settle logged brings
  obtain ⟨j, before, grants⟩ := (h.balanced e).preceded i key terms settles
  obtain ⟨admitted, given, admits, earlier, named', stated'⟩ := brings_of_grant logged grants
  refine ⟨admitted, given, admits, by omega, ?_, stated'.trans stated.symm⟩
  exact ⟨terms.admissionId, key, ⟨admissionId_of_terms stated', named'⟩,
    admissionId_of_terms stated, named⟩

/-- A record settles one admission and is the only one to do so, whatever it repeats. -/
theorem Tracked.settlesOne (brings : c.Brings e.recorded event object)
    (agrees : ∀ admitted given, c.Brings e.admitted admitted given →
      admitted.sequence < event.sequence → e.SameEffect given object → e.Agrees given object) :
    SettlesOne c e event object := by
  refine ⟨?_, agrees, fun other object' settles same => ?_⟩
  · obtain ⟨admitted, given, admits, earlier, same, -⟩ := h.admission logged brings
    refine ⟨admitted, ⟨earlier, given, admits, same⟩, ?_⟩
    rintro other ⟨-, given', admits', same'⟩
    obtain ⟨_, _, ⟨-, named⟩, -, names⟩ := same
    obtain ⟨_, _, ⟨-, named'⟩, -, names'⟩ := same'
    exact h.admission_unique logged admits' admits
      (named'.trans ((names'.symm.trans names).trans named.symm))
  · obtain ⟨i, key, terms, -, found, first, -, stated⟩ := h.settle logged settles
    obtain ⟨j, key', terms', -, found', second, -, stated'⟩ := h.settle logged brings
    rw [admissionId_of_terms stated, admissionId_of_terms stated', Option.some.injEq] at same
    obtain rfl : i = j := (h.balanced e).settle_unique first second same
    exact Option.some.inj (found.symm.trans found')

/-- A record of an experiment or a tool call repeats its admission. -/
theorem Tracked.agrees (keeps : e.keepsTerms = true) (brings : c.Brings e.recorded event object)
    (admits : c.Brings e.admitted other given)
    (same : e.SameEffect given object) : e.Agrees given object := by
  obtain ⟨admitted, given', admits', -, same', sameTerms⟩ := h.admission logged brings
  obtain ⟨_, _, _, -, -, -, -, stated⟩ := h.settle logged brings
  obtain ⟨_, _, ⟨-, named⟩, -, names⟩ := same
  obtain ⟨_, _, ⟨-, named'⟩, -, names'⟩ := same'
  have one : other = admitted := h.admission_unique logged admits admits'
    (named.trans ((names.symm.trans names').trans named'.symm))
  subst one
  obtain rfl : given = given' := Option.some.inj (admits.payload.symm.trans admits'.payload)
  exact agrees_of_terms keeps sameTerms stated

/-- What is left for the law is that the records agree of which only the id was kept. -/
theorem Tracked.effectsSettled
    (agrees : ∀ e : Effect, e.keepsTerms = false → ∀ record object admitted given,
      c.Brings e.recorded record object → c.Brings e.admitted admitted given →
        admitted.sequence < record.sequence → e.SameEffect given object →
          e.Agrees given object) : EffectsSettled c := by
  intro e record object brings
  apply h.settlesOne logged brings
  intro admitted given admits earlier same
  cases keeps : e.keepsTerms with
  | true => exact h.agrees logged keeps brings admits same
  | false => exact agrees e keeps record object admitted given brings admits earlier same

end

end

end Places

/-! ### Steps and runs -/

section Runs

variable {externals : Externals} {c d : LabController} {event : LabEvent} {call : Call}

/-- One more event keeps the law if it agrees with the admission that it names, in case only
the id of that admission was kept. -/
theorem Appends.effectsSettled_event_iff (appends : Appends externals c d event)
    (logged : WellLogged c) (tracked : Tracked d) (h : EffectsSettled c) :
    EffectsSettled d ↔ ∀ e : Effect, e.keepsTerms = false → event.kind = e.recorded →
      ∀ object, d.payloadObject event = some object →
        ∀ admitted given, c.Brings e.admitted admitted given → e.SameEffect given object →
          e.Agrees given object := by
  constructor
  · intro settled e keeps kind object read admitted given admits same
    have brings : d.Brings e.recorded event object :=
      (appends.brings_iff logged).mpr (.inr ⟨rfl, kind, read⟩)
    refine (settled e event object brings).agrees admitted given
      ((appends.brings_iff logged).mpr (.inl admits)) ?_ same
    have bound := logged.sequence_le admits.mem
    have next := appends.sequence
    omega
  · intro agrees
    apply tracked.effectsSettled (logged.of_appends appends)
    intro e keeps record object admitted given brings admits earlier same
    obtain brings | ⟨rfl, kind, read⟩ := (appends.brings_iff logged).mp brings
    · obtain admits | ⟨rfl, -, -⟩ := (appends.brings_iff logged).mp admits
      · exact (h e record object brings).agrees admitted given admits earlier same
      · have bound := logged.sequence_le brings.mem
        have next := appends.sequence
        omega
    · obtain admits | ⟨rfl, -, -⟩ := (appends.brings_iff logged).mp admits
      · exact agrees e keeps kind object read admitted given admits same
      · omega

/-- What every reachable controller has. -/
structure Settling (c : LabController) : Prop where
  logged : WellLogged c
  tracked : Tracked c

theorem Move.settling (move : Move externals call c d) (h : Settling c) : Settling d := by
  obtain ⟨event, appends⟩ := move.appends
  exact ⟨h.logged.of_appends appends, move.tracked h.logged h.tracked⟩

/-- A move that brings no payload keeps the law. -/
theorem Move.effectsSettled (move : Move externals call c d) (settling : Settling c)
    (plain : ∀ event payloadJson projectionState,
      call ≠ .admitProjectionRecord event payloadJson projectionState)
    (h : EffectsSettled c) : EffectsSettled d := by
  obtain ⟨event, appends, bare | ⟨payload, projectionState, ⟨admitted⟩⟩⟩ := move.bare_or_admitted
  · apply (appends.effectsSettled_event_iff settling.logged (move.settling settling).tracked h).mpr
    intro e keeps kind object read
    rw [bare.payloadObject appends settling.logged] at read
    cases read
  · exact absurd admitted.call_eq (plain _ _ _)

theorem admission_of_accepts {payloadJson : String} {projectionState : Option LabRunState}
    (h : accepts externals c (.admitProjectionRecord event payloadJson projectionState) = true) :
    ∃ payload, ∃ a : Admission externals c event payload projectionState,
      externals.fromStr payloadJson = some payload ∧
        step externals c (.admitProjectionRecord event payloadJson projectionState) = a.result := by
  cases done : method externals (.admitProjectionRecord event payloadJson projectionState) c with
  | error e d => simp [accepts, Foundation.succeeds, done] at h
  | ok u d => ?_
  have reach : step externals c (.admitProjectionRecord event payloadJson projectionState) = d := by
    simp [step, after, done]
  simp only [method, admitProjectionRecord, bind_ok_iff, get_ok_iff, checked_ok_iff,
    set_ok_iff] at done
  obtain ⟨_, _, ⟨rfl, rfl⟩, candidate, _, ⟨applied, rfl⟩, rfl⟩ := done
  obtain ⟨payload, parsed, a, rfl⟩ := admitProjectionRecordMut_ok applied
  exact ⟨payload, a, parsed, reach⟩

theorem step_settling (h : Settling c) : Settling (step externals c call) :=
  step_keeps (fun _ _ move => move.settling) h

/-- A step keeps the law exactly if the call is refused or repeats the admission that it
names. -/
theorem step_effectsSettled_iff (settling : Settling c) (h : EffectsSettled c) :
    EffectsSettled (step externals c call) ↔
      (accepts externals c call = true → RepeatsAdmission c externals call) := by
  by_cases plain : ∀ event payloadJson projectionState,
      call ≠ .admitProjectionRecord event payloadJson projectionState
  · refine ⟨fun _ _ event payloadJson projectionState _ _ same =>
      absurd same (plain event payloadJson projectionState), fun _ => ?_⟩
    have keep : ∀ c d, Move externals call c d → Settling c ∧ EffectsSettled c →
        Settling d ∧ EffectsSettled d := fun c d move held =>
      ⟨move.settling held.1, move.effectsSettled held.1 plain held.2⟩
    exact (step_keeps keep ⟨settling, h⟩).2
  · push Not at plain
    obtain ⟨event, payloadJson, projectionState, rfl⟩ := plain
    obtain ⟨refused, same⟩ | ⟨accepted, -⟩ := step_cases externals c
      (.admitProjectionRecord event payloadJson projectionState)
    · rw [same, refused]
      exact ⟨nofun, fun _ => h⟩
    · obtain ⟨payload, a, parsed, reach⟩ := admission_of_accepts accepted
      have tracked := a.tracked settling.logged settling.tracked
      rw [reach, a.appends.effectsSettled_event_iff settling.logged tracked h, a.payloadObject]
      constructor
      · rintro agrees - _ _ _ payload' object ⟨⟩ parsed' read e keeps kind
        obtain rfl := Option.some.inj (parsed.symm.trans parsed')
        exact agrees e keeps kind object read
      · intro repeats e keeps kind object read
        exact repeats accepted event payloadJson projectionState payload object rfl parsed read e
          keeps kind

theorem settling_new {mission : LabMissionSpec} {start : LabController}
    (created : LabController.new externals mission = .ok start) :
    Settling start ∧ EffectsSettled start := by
  refine ⟨⟨.of_new created, tracked_new created⟩, ?_⟩
  obtain ⟨-, budget, -, rfl⟩ := new_ok created
  rintro e record object ⟨-, -, read⟩
  cases read

/-- Along a run the law holds in every controller if and only if every accepted record of a
browser action, a browser observation or a research program repeats its admission. -/
theorem effectsSettled_iff {mission : LabMissionSpec} {start : LabController}
    (created : LabController.new externals mission = .ok start) (calls : List Call) :
    (∀ before after, calls = before ++ after → EffectsSettled (reached externals start before)) ↔
      ∀ before call after, calls = before ++ call :: after →
        accepts externals (reached externals start before) call = true →
          RepeatsAdmission (reached externals start before) externals call := by
  obtain ⟨settling, settled⟩ := settling_new created
  have along :
      (∀ before after, calls = before ++ after →
        EffectsSettled (run (step externals) start before)) ↔
      Along (step externals) (fun c call => accepts externals c call = true →
        RepeatsAdmission c externals call) start calls :=
    run_prefixes_iff_along (fun _ _ => step_settling) (fun _ _ => step_effectsSettled_iff)
      settling settled
  exact along.trans along_iff_at_step

end Runs

/-! ### A browser action -/

/-- A digest with one digit. -/
def repeatedDigit (digit : Char) : String :=
  String.ofList (List.replicate 64 digit)

section

variable (input : Char)

/-- A click with this input, and what its event says of the outcome. -/
def clickText (outcome : String) : String :=
  "\x7b\"action_id\":\"action-1\",\"action_kind\":\"click\",\"actor_role\":\"actor\"," ++
    "\"admission_id\":\"admission-1\",\"input_hash\":\"" ++ repeatedDigit input ++
    "\",\"lease_id\":1,\"policy_hash\":\"" ++ repeatedDigit 'c' ++ "\"," ++ outcome ++ "\x7d"

def clickValue (outcome : JsonObject) : Json :=
  .object ([("action_id", .string "action-1"), ("action_kind", .string "click"),
    ("actor_role", .string "actor"), ("admission_id", .string "admission-1"),
    ("input_hash", .string (repeatedDigit input)), ("lease_id", .nat 1),
    ("policy_hash", .string (repeatedDigit 'c'))] ++ outcome)

def admittedText : String :=
  clickText input "\"status\":\"ADMITTED\""

def recordedText : String :=
  clickText input ("\"result_hash\":\"" ++ repeatedDigit 'd' ++ "\",\"status\":\"SUCCESS\"")

def admittedValue : Json :=
  clickValue input [("status", .string "ADMITTED")]

def recordedValue : Json :=
  clickValue input
    [("result_hash", .string (repeatedDigit 'd')), ("status", .string "SUCCESS")]

/-- The parser and the digests on a click that is admitted with one input and recorded with the
same or with another. -/
def clickExternals : Externals where
  fromStr text :=
    if text = admittedText 'a' then some (admittedValue 'a')
    else if text = recordedText 'a' then some (recordedValue 'a')
    else if text = recordedText 'b' then some (recordedValue 'b')
    else none
  canonicalHash
    | .state state => stateDigest state
    | .mission _ => .ofNat 0x87e9a74be9ad48fb07cc8bccca732c5a777d0371ced70cd2f6f742824271ba34
    | .event event =>
        match event.sequence with
        | 1 => .ofNat 0x2f881500be97336f3d1ce983048f13aba41b122db6e1c919483fa7e272b8f9f1
        | 2 => .ofNat 0x451663109f4d761e7ac292c47463e71651fefff6329303e7eaa3fff55e6924f5
        | 3 =>
            if event.payloadHash =
                .ofNat 0xce8523e2c1461127e89b8c83b17e40bcdfd97b8a5f93630c706d5543df0bbe4b then
              .ofNat 0x2ddab2e60a13531f237dcfbce689cd76233304db0e71191e172a930498bcddd1
            else .ofNat 0xade334d04698c13ba3c7a2b4cf1dd0b319bfd2f17c9e3191aa3b8895a9a2dd12
        | _ => .zero
    | _ => .zero
  projectionPayloadDigest value :=
    if (value.get? "result_hash").isNone then
      .ofNat 0xfeea684150fb1c00d7413e875aaedb3066f55b2d7801c4d9b73717859bbb4698
    else if (value.get? "input_hash").bind Json.asStr = some (repeatedDigit 'a') then
      .ofNat 0xce8523e2c1461127e89b8c83b17e40bcdfd97b8a5f93630c706d5543df0bbe4b
    else .ofNat 0x9ca5c56140b7dd770574c0ab0cb72e79c61842c7f8a9ed6400b8cb081d4ccf0a
  goalContractDigest _ := .zero
  executionBindingDigest _ := .zero

def clickAdmitted : LabEvent where
  sequence := 2
  stateEpoch := 0
  kind := .browserActionAdmitted
  payloadHash := .ofNat 0xfeea684150fb1c00d7413e875aaedb3066f55b2d7801c4d9b73717859bbb4698
  previousEventHash := .ofNat 0x2f881500be97336f3d1ce983048f13aba41b122db6e1c919483fa7e272b8f9f1
  eventHash := .ofNat 0x451663109f4d761e7ac292c47463e71651fefff6329303e7eaa3fff55e6924f5

def clickRecorded (payloadHash eventHash : Nat) : LabEvent where
  sequence := 3
  stateEpoch := 0
  kind := .browserActionRecorded
  payloadHash := .ofNat payloadHash
  previousEventHash := .ofNat 0x451663109f4d761e7ac292c47463e71651fefff6329303e7eaa3fff55e6924f5
  eventHash := .ofNat eventHash

/-- The record that repeats the input of its admission. -/
def repeatedClick : LabEvent :=
  clickRecorded 0xce8523e2c1461127e89b8c83b17e40bcdfd97b8a5f93630c706d5543df0bbe4b
    0x2ddab2e60a13531f237dcfbce689cd76233304db0e71191e172a930498bcddd1

/-- The record that names another input. -/
def changedClick : LabEvent :=
  clickRecorded 0x9ca5c56140b7dd770574c0ab0cb72e79c61842c7f8a9ed6400b8cb081d4ccf0a
    0xade334d04698c13ba3c7a2b4cf1dd0b319bfd2f17c9e3191aa3b8895a9a2dd12

def clickCalls (record : LabEvent) (text : String) : List Call :=
  [.admitProjectionRecord clickAdmitted (admittedText 'a') none,
    .admitProjectionRecord record text none]

/-- The controller of a legacy mission before its first call. -/
def clickStart : LabController :=
  smallStart clickExternals legacyMission

theorem clickStart_new : LabController.new clickExternals legacyMission = .ok clickStart :=
  rfl

/-- The members of a click that the law is about. -/
def clickMembers (object : JsonObject) : List (Option String) × List (Option Nat) :=
  (("admission_id" :: "action_id" :: Effect.browserAction.texts).map (trimmedStr object),
    Effect.browserAction.numbers.map (object.u64? ·))

/-- The members of a click with this input. -/
def clickTerms : List (Option String) × List (Option Nat) :=
  ([some "admission-1", some "action-1", some (repeatedDigit input), some (repeatedDigit 'c'),
    some "click"], [some 1])

end

theorem same_of_clickTerms {given object : JsonObject} {input input' : Char}
    (first : clickMembers given = clickTerms input)
    (second : clickMembers object = clickTerms input') :
    Effect.browserAction.SameEffect given object ∧
      (Effect.browserAction.Agrees given object ↔ repeatedDigit input = repeatedDigit input') := by
  simp only [clickMembers, clickTerms, Effect.texts, Effect.numbers, List.map_cons, List.map_nil,
    Prod.mk.injEq, List.cons.injEq, and_true] at first second
  obtain ⟨⟨id, action, input, policy, kind⟩, lease⟩ := first
  obtain ⟨⟨id', action', input', policy', kind'⟩, lease'⟩ := second
  refine ⟨⟨_, _, ⟨id, action⟩, id', action'⟩, ?_⟩
  simp [Effect.Agrees, Effect.texts, Effect.numbers, input, input', policy, policy', kind, kind',
    lease, lease']

/-- Both clicks of a run, as the log holds them. -/
theorem click_brings {record : LabEvent} {text : String} {input : Char}
    (mem : [clickAdmitted, record] ⊆
      (reached clickExternals clickStart (clickCalls record text)).runtime.events)
    (kind : record.kind = .browserActionRecorded)
    (admits : ((reached clickExternals clickStart (clickCalls record text)).payloadObject
      clickAdmitted).map clickMembers = some (clickTerms 'a'))
    (records : ((reached clickExternals clickStart (clickCalls record text)).payloadObject
      record).map clickMembers = some (clickTerms input)) :
    ∃ given object,
      (reached clickExternals clickStart (clickCalls record text)).Brings
        Effect.browserAction.admitted clickAdmitted given ∧
      (reached clickExternals clickStart (clickCalls record text)).Brings
        Effect.browserAction.recorded record object ∧
      Effect.browserAction.SameEffect given object ∧
      (Effect.browserAction.Agrees given object ↔ repeatedDigit 'a' = repeatedDigit input) := by
  obtain ⟨given, read, first⟩ := map_eq_some_iff.mp admits
  obtain ⟨object, read', second⟩ := map_eq_some_iff.mp records
  exact ⟨given, object, ⟨mem (by simp), rfl, read⟩, ⟨mem (by simp), kind, read'⟩,
    same_of_clickTerms first second⟩

theorem repeatedClick_repeats {e : Effect} {payload : Json}
    {admitted : LabEvent} {given object : JsonObject}
    (parsed : clickExternals.fromStr (recordedText 'a') = some payload)
    (read : payload.asObject = some object) (kind : repeatedClick.kind = e.recorded)
    (admits : (reached clickExternals clickStart [.admitProjectionRecord clickAdmitted
      (admittedText 'a') none]).Brings e.admitted admitted given) : e.Agrees given object := by
  obtain rfl : e = .browserAction := by
    cases e <;> first | rfl | cases kind
  have only : ∀ event ∈ (reached clickExternals clickStart [.admitProjectionRecord clickAdmitted
      (admittedText 'a') none]).runtime.events,
      event.kind = .browserActionAdmitted → event = clickAdmitted := by
    decide +kernel
  obtain rfl := only admitted admits.mem admits.kind_eq
  have first : ((reached clickExternals clickStart [.admitProjectionRecord clickAdmitted
      (admittedText 'a') none]).payloadObject clickAdmitted).map clickMembers =
        some (clickTerms 'a') := by
    decide +kernel
  have second : ((clickExternals.fromStr (recordedText 'a')).bind Json.asObject).map clickMembers =
      some (clickTerms 'a') := by
    decide +kernel
  rw [admits.payload, map_some, Option.some.injEq] at first
  rw [parsed, bind_some, read, map_some, Option.some.injEq] at second
  exact (same_of_clickTerms first second).2.mpr rfl

theorem repeatedClick_settled :
    EffectsSettled
        (reached clickExternals clickStart (clickCalls repeatedClick (recordedText 'a'))) ∧
      (reached clickExternals clickStart
        (clickCalls repeatedClick (recordedText 'a'))).runtime.events.map (·.kind) =
          [.missionCreated, .browserActionAdmitted, .browserActionRecorded] := by
  refine ⟨?_, by decide +kernel⟩
  refine (effectsSettled_iff clickStart_new
    (clickCalls repeatedClick (recordedText 'a'))).mpr ?_ _ [] (by simp)
  intro before call after split _ event payloadJson projectionState payload object same parsed
    read e _ kind admitted given admits _
  subst same
  cases before with
  | nil =>
      obtain ⟨first, -⟩ := List.cons.inj split
      obtain ⟨rfl, -, -⟩ := Call.admitProjectionRecord.inj first
      cases e <;> cases kind
  | cons first before =>
      obtain ⟨rfl, rest⟩ := List.cons.inj split
      cases before with
      | nil =>
          obtain ⟨second, -⟩ := List.cons.inj rest
          obtain ⟨rfl, rfl, -⟩ := Call.admitProjectionRecord.inj second
          exact repeatedClick_repeats parsed read kind admits
      | cons next before => simp at rest

/-- A click that was admitted with one input is recorded with another. -/
theorem changedClick_not_settled :
    ¬ ∀ (externals : Externals) (mission : LabMissionSpec) (start : LabController)
        (calls : List Call), LabController.new externals mission = .ok start →
      EffectsSettled (reached externals start calls) := by
  intro always
  have settled := always clickExternals legacyMission clickStart
    (clickCalls changedClick (recordedText 'b')) clickStart_new
  obtain ⟨given, object, admits, records, same, agrees⟩ :
      ∃ given object,
        (reached clickExternals clickStart
          (clickCalls changedClick (recordedText 'b'))).Brings
            Effect.browserAction.admitted clickAdmitted given ∧
        (reached clickExternals clickStart
          (clickCalls changedClick (recordedText 'b'))).Brings
            Effect.browserAction.recorded changedClick object ∧
        Effect.browserAction.SameEffect given object ∧
        (Effect.browserAction.Agrees given object ↔ repeatedDigit 'a' = repeatedDigit 'b') :=
    click_brings (by decide +kernel) rfl (by decide +kernel) (by decide +kernel)
  have repeats := (settled .browserAction changedClick object records).agrees clickAdmitted given
    admits (by decide) same
  exact absurd (agrees.mp repeats) (by decide +kernel)

end Aegis.Lab
