import SemanticMemory.Evidence.Named
import SemanticMemory.Lib.Runs

/-!
# Evidence is computed under the identity it declares

A successful answer should be computed from one snapshot, or one read of the store, whose identity
and watermark are those the request declares, with every vector and index of that one
representation (`Answer.Bound`).

The code checks the identity against the snapshot of one moment and serves the snapshot of a later
one; it serves a neighbour index that no publication replaces; it takes the service's own provider
when the store appears while the machine's path is already left; and it reads the clock of the facts
in two statements.  `Undisturbed` says that none of this is met:

* no publication of another representation is switched to while a call stands between its identity
  check and its snapshot;
* a neighbour index is of the representation served when the identity is checked;
* a store that appears between the two looks for it is read with a provider of the representation
  served;
* the clock does not enter another millisecond, below the declared logical part, between the two
  statements that read the query point.

In every run that meets it, every answer is bound (`evidence_bound`); `evidence_mixed` is a run that
breaks the first condition only.
-/

namespace SemanticMemory
namespace Evidence

open FactStore Delta Runs

/-! ## What an answer should be -/

/-- The watermark a request declares is that of the epoch, and reached by the point. -/
def Request.Declares (request : Request) (storeEpoch : Text) (point : Hlc) : Prop :=
  request.factHighWater = .null ∨
    ∃ want, request.factHighWater = .declared storeEpoch want ∧ want ≤ point

/-- Everything a computation used is of one representation. -/
structure Computation.Of (R : Text) (c : Computation) : Prop where
  representation : c.representationId = R
  queryVectors : ∀ v ∈ c.queryVectors, v.representationId = R
  eventVectors : ∀ v ∈ c.eventVectors, v.2 = R
  index : ∀ index, c.index = some index → index.representationId = R

/-- A result is computed under the representation, and at the watermark declared. -/
def Result.Of (request : Request) (R : Text) : Result → Prop
  | .missingStore => request.factHighWater = .null
  | .computed c => request.Declares c.storeEpoch c.queryPoint ∧ c.Of R

/-- A success is computed under what its request declares. -/
def Answer.Bound (answer : Answer) : Prop :=
  ∀ result, answer.response = .ok result → ∃ service request R,
    answer.service = some service ∧ answer.request = some request ∧
      service.identityOf R = some request.configIdentity ∧ result.Of request R

/-! ## When it is -/

/-- A call whose identity is checked and whose snapshot, or store, is not yet looked at. -/
def Phase.unfetched : Phase → Bool
  | .checked | .leased | .gate | .waiting _ | .direct => true
  | _ => false

/-- The two halves of the clock, read in two statements, lie before the declared watermark. -/
def Torn (factHighWater : FactHighWater) (physicalMs : ℤ) (now : Meta) : Prop :=
  match factHighWater with
  | .declared _ want => now.hlcPhysicalMs ≠ physicalMs ∧ (ofLex want).1 = physicalMs ∧
      now.hlcLogical < (ofLex want).2
  | _ => False

/-- What a call is not to meet when it goes on. -/
def Phase.Undisturbed (w : World) (service : Service) (request : Request) : Phase → Prop
  | .direct => w.present = true →
      service.provider.representationId = w.servedRepresentation service
  | .pointing _ _ physicalMs => ¬ Torn request.factHighWater physicalMs w.db.metaRows
  | _ => True

/-- The condition on a step. -/
def Undisturbed (w : World) : Action → Prop
  | .switch publication _ => (∃ call ∈ w.calls, call.phase.unfetched = true) →
      publication.provider.representationId = w.delta.machine.provider.representationId
  | .receive _ => ∀ service ∈ w.service, service.retrievalBackend.isAnn = true →
      ∀ index ∈ service.annIndex, index.representationId = w.servedRepresentation service
  | .advance i _ => ∀ service ∈ w.service, ∀ call ∈ w.calls[i]?,
      call.phase.Undisturbed w service call.request
  | _ => True

instance (factHighWater : FactHighWater) (physicalMs : ℤ) (now : Meta) :
    Decidable (Torn factHighWater physicalMs now) :=
  match factHighWater with
  | .declared _ _ => inferInstanceAs (Decidable (_ ∧ _ ∧ _))
  | .null | .malformed => isFalse id

instance (w : World) (service : Service) (request : Request) (phase : Phase) :
    Decidable (phase.Undisturbed w service request) :=
  match phase with
  | .direct => inferInstanceAs (Decidable (_ → _ = _))
  | .pointing _ _ _ => inferInstanceAs (Decidable (¬ _))
  | .checked | .leased | .gate | .waiting _ | .fetched _ | .reading _ | .listing _ _
  | .listed _ _ => isTrue trivial

instance (w : World) (action : Action) : Decidable (Undisturbed w action) :=
  match action with
  | .switch _ _ => inferInstanceAs (Decidable ((∃ call ∈ w.calls, _ = true) → _ = _))
  | .receive _ => inferInstanceAs (Decidable (∀ service ∈ w.service, _ → ∀ index ∈ _, _ = _))
  | .advance i _ => inferInstanceAs (Decidable
      (∀ service ∈ w.service, ∀ call ∈ w.calls[i]?, call.phase.Undisturbed w service call.request))
  | .facts _ | .create _ | .prepare | .replace _ | .resume | .start _ _ | .worker _ | .invalidate _
  | .stage _ | .commit _ => isTrue trivial

/-- Generation ids are hashes of identities that contain the representation, and a process is
configured with a generation of its provider's representation. -/
def Names (ρ : Text → Text) (w : World) : Action → Prop
  | .start service env => service.machine = true →
      ρ env.declaredGenerationId = env.provider.representationId ∧
        ρ env.generation.newId = env.provider.representationId
  | .worker (.cycle env) =>
      ρ env.generation.newId = w.delta.machine.provider.representationId
  | .stage env => ρ env.generation.newId = env.provider.representationId
  | _ => True

/-! ## The invariant -/

/-- What is known of a call once its identity is checked under a representation. -/
def Phase.Ok (w : World) (service : Service) (request : Request) (R : Text) : Phase → Prop
  | .fetched snapshot => SnapshotOf R snapshot ∧
      request.Declares snapshot.storeEpoch snapshot.consumed
  | .reading storeEpoch | .listing storeEpoch _ | .listed storeEpoch _ =>
      service.provider.representationId = R ∧ w.present = true ∧
        request.Declares storeEpoch w.db.clock
  | .pointing storeEpoch _ physicalMs =>
      service.provider.representationId = R ∧ w.present = true ∧
        request.Declares storeEpoch w.db.clock ∧
        ∀ epoch want, request.factHighWater = .declared epoch want → (ofLex want).1 ≤ physicalMs
  | .gate | .waiting _ => service.machine = true ∧ w.servedRepresentation service = R
  | .checked | .leased | .direct => w.servedRepresentation service = R

/-- A call under way. -/
structure Call.Ok (w : World) (service : Service) (call : Call) (R : Text) : Prop where
  identity : service.identityOf R = some call.request.configIdentity
  index : service.retrievalBackend.isAnn = true →
    ∀ index, service.annIndex = some index → index.representationId = R
  phase : call.phase.Ok w service call.request R

/-- The invariant of every run. -/
structure SystemOk (ρ : Text → Text) (w : World) : Prop where
  disk : DiskNamed ρ w.delta
  machine : w.machineRuns = true → MachineNamed ρ w.delta.machine
  staged : ∀ s, w.staged = some s → Staged.Named ρ s
  committed : ∀ p ∈ w.committed, ρ p.generationId = p.provider.representationId
  calls : ∀ call ∈ w.calls, ∃ service R, w.service = some service ∧ call.Ok w service R
  answers : ∀ answer ∈ w.answers, answer.Bound

variable {ρ : Text → Text} {w : World}

theorem MachineNamed.shown {m : Machine} (h : MachineNamed ρ m) :
    m.snapshotRepresentationId = m.provider.representationId := by
  unfold Machine.snapshotRepresentationId
  split
  · rename_i s hs
    exact (h.snapshot s hs).representation
  · rfl

variable {service : Service}

theorem World.machineRuns_of (hs : w.service = some service) (hm : service.machine = true) :
    w.machineRuns = true := by
  simp [World.machineRuns, hs, hm]

variable {w' : World}

/-- A machine that keeps its provider keeps what is served. -/
theorem servedRepresentation_congr
    (hw : service.machine = true → MachineNamed ρ w.delta.machine)
    (hw' : service.machine = true → MachineNamed ρ w'.delta.machine)
    (hprovider : service.machine = true →
      w'.delta.machine.provider.representationId = w.delta.machine.provider.representationId) :
    w'.servedRepresentation service = w.servedRepresentation service := by
  unfold World.servedRepresentation
  split
  · rename_i hm
    rw [(hw hm).shown, (hw' hm).shown, hprovider hm]
  · rfl

variable {request : Request} {R : Text}

/-- What a call knows survives a step that leaves its world in view alone. -/
theorem Phase.Ok.congr
    {phase : Phase} (h : phase.Ok w service request R)
    (hserved : phase.unfetched = true →
      w'.servedRepresentation service = w.servedRepresentation service)
    (hstore : phase.leases = true → w.present = true → w'.present = true ∧
      w.db.clock ≤ w'.db.clock) : phase.Ok w' service request R := by
  have hmono : ∀ {e : Text}, w.db.clock ≤ w'.db.clock → request.Declares e w.db.clock →
      request.Declares e w'.db.clock := fun hle hd =>
    hd.imp_right fun ⟨want, hwant, hpoint⟩ => ⟨want, hwant, hpoint.trans hle⟩
  cases phase with
  | fetched snapshot => exact h
  | reading e | listing e p | listed e ids =>
    obtain ⟨hp, hpresent, hd⟩ := h
    obtain ⟨hpresent', hle⟩ := hstore rfl hpresent
    exact ⟨hp, hpresent', hmono hle hd⟩
  | pointing e ids p =>
    obtain ⟨hp, hpresent, hd, hphys⟩ := h
    obtain ⟨hpresent', hle⟩ := hstore rfl hpresent
    exact ⟨hp, hpresent', hmono hle hd, hphys⟩
  | checked | leased | direct => exact (hserved rfl).trans h
  | gate | waiting identity => exact ⟨h.1, (hserved rfl).trans h.2⟩

/-- A call looks at nothing but the machine, the facts and the store. -/
theorem Call.Ok.view {call : Call} (h : call.Ok w service R) (hdelta : w'.delta = w.delta)
    (hpresent : w'.present = w.present) :
    call.Ok w' service R where
  identity := h.identity
  index := h.index
  phase := h.phase.congr (fun _ => by rw [World.servedRepresentation, World.servedRepresentation,
    hdelta]) fun _ hp => ⟨hpresent.trans hp, by rw [World.db, World.db, hdelta]⟩

/-- What all calls know survives such a step. -/
theorem SystemOk.calls_congr (h : SystemOk ρ w) (hservice : w'.service = w.service)
    (hcalls : w'.calls = w.calls)
    (hserved : (∃ call ∈ w.calls, call.phase.unfetched = true) → ∀ service,
      w.service = some service → w'.servedRepresentation service = w.servedRepresentation service)
    (hstore : (∃ call ∈ w.calls, call.phase.leases = true) → w.present = true →
      w'.present = true ∧ w.db.clock ≤ w'.db.clock) :
    ∀ call ∈ w'.calls, ∃ service R, w'.service = some service ∧ call.Ok w' service R := by
  intro call hcall
  rw [hcalls] at hcall
  obtain ⟨service, R, hs, hok⟩ := h.calls call hcall
  exact ⟨service, R, hservice.trans hs, hok.identity, hok.index,
    hok.phase.congr (fun hu => hserved ⟨call, hcall, hu⟩ service hs)
      fun hl => hstore ⟨call, hcall, hl⟩⟩

/-! ## A call goes on -/

variable {storeEpoch : Text}

theorem checkWatermark_eq_ok {point : Hlc} {u : Unit}
    (h : checkWatermark request.factHighWater storeEpoch point = .ok u) :
    request.Declares storeEpoch point := by
  unfold checkWatermark at h
  split at h
  · rename_i hnull
    exact Or.inl hnull
  · cases h
  · rename_i expected want hwant
    split at h
    · cases h
    · split at h
      · cases h
      · rename_i hepoch
        split at h
        · cases h
        · rename_i hle
          rw [not_not] at hepoch
          exact Or.inr ⟨want, hepoch ▸ hwant, not_lt.mp hle⟩

theorem oracleQuery_representationId {source : Provider} {v : QueryVector}
    (hv : v ∈ oracleQuery source request) : v.representationId = source.representationId := by
  unfold oracleQuery at hv
  split at hv
  · obtain ⟨candidate, -, rfl⟩ := List.mem_map.mp hv
    rfl
  · obtain rfl := List.mem_singleton.mp hv
    rfl

variable {env : ServeEnv}

theorem lookUp_eq_ok {events : List StoredEvent} {vectorFor : Text → Option Text}
    {vectors : List (Text × Text)} (h : lookUp env events vectorFor = .ok vectors)
    (hR : ∀ eventId v, vectorFor eventId = some v → v = R) : ∀ v ∈ vectors, v.2 = R := by
  unfold lookUp at h
  simp only at h
  split at h
  · obtain rfl := Except.ok.inj h
    intro v hv
    obtain ⟨event, -, hevent⟩ := List.mem_filterMap.mp hv
    obtain ⟨vector, hvector, rfl⟩ := Option.map_eq_some_iff.mp hevent
    exact hR _ _ hvector
  · cases h

theorem retrievalIndex_eq_ok {backend : Option RetrievalBackend} {index : Option NeighborIndex}
    (h : retrievalIndex service backend = .ok index) {i : NeighborIndex} (hi : index = some i) :
    service.retrievalBackend.isAnn = true ∧ service.annIndex = some i := by
  unfold retrievalIndex at h
  split at h
  · rename_i hann
    split at h
    · cases h
    · rename_i index' hindex
      split at h
      · cases h
      · obtain rfl := Except.ok.inj h
        exact ⟨hann, hindex.trans hi⟩
  · split at h
    · obtain rfl := Except.ok.inj h
      cases hi
    · split at h
      · cases h
      · obtain rfl := Except.ok.inj h
        cases hi

/-- A success of two fallible steps is a success of each. -/
theorem except_bind_eq_ok {ε α β : Type} {x : Except ε α} {f : α → Except ε β} {b : β}
    (h : (x >>= f) = .ok b) : ∃ a, x = .ok a ∧ f a = .ok b := by
  cases x with
  | error e => cases h
  | ok a => exact ⟨a, rfl, h⟩

/-- **A snapshot of one representation is served under it.** -/
theorem serveSnapshot_of
    {snapshot : DeltaSnapshot} {c : Computation}
    (h : serveSnapshot service env request snapshot = .ok c) (hs : SnapshotOf R snapshot)
    (hindex : service.retrievalBackend.isAnn = true →
      ∀ index, service.annIndex = some index → index.representationId = R) :
    c.Of R ∧ c.storeEpoch = snapshot.storeEpoch ∧ c.queryPoint = snapshot.consumed := by
  obtain ⟨index, hi, h⟩ := except_bind_eq_ok h
  obtain ⟨vectors, hv, h⟩ := except_bind_eq_ok h
  obtain rfl := Except.ok.inj h
  refine ⟨⟨hs.representation, fun v hmem => ?_, ?_, fun i hsome => ?_⟩, rfl, rfl⟩
  · rw [oracleQuery_representationId hmem]
    exact hs.provider
  · refine lookUp_eq_ok hv fun eventId v hfind => ?_
    obtain ⟨entry, hentry, rfl⟩ := Option.map_eq_some_iff.mp hfind
    exact hs.vectors entry (List.mem_of_find?_eq_some hentry)
  · obtain ⟨hann, hann'⟩ := retrievalIndex_eq_ok hi hsome
    exact hindex hann i hann'

theorem serveDirect_of {db : Db} {listed : List Text} {queryPoint : Hlc} {c : Computation}
    (h : serveDirect service env request db storeEpoch listed queryPoint = .ok c)
    (hs : service.provider.representationId = R)
    (hindex : service.retrievalBackend.isAnn = true →
      ∀ index, service.annIndex = some index → index.representationId = R) :
    c.Of R ∧ c.storeEpoch = storeEpoch ∧ c.queryPoint = queryPoint := by
  obtain ⟨index, hi, h⟩ := except_bind_eq_ok h
  obtain ⟨vectors, hv, h⟩ := except_bind_eq_ok h
  obtain rfl := Except.ok.inj h
  refine ⟨⟨hs, fun v hmem => ?_, ?_, fun i hsome => ?_⟩, rfl, rfl⟩
  · rw [oracleQuery_representationId hmem]
    exact hs
  · refine lookUp_eq_ok hv fun eventId v hlisted => ?_
    split at hlisted
    · obtain rfl := Option.some.inj hlisted
      exact hs
    · cases hlisted
  · obtain ⟨hann, hann'⟩ := retrievalIndex_eq_ok hi hsome
    exact hindex hann i hann'

/-- A query point read in two statements, none of which meets another millisecond, has passed the
declared watermark. -/
theorem defaultAsOf_declares {physicalMs : ℤ} {db : Db}
    {asOf : Hlc} (h : defaultAsOf physicalMs db = some asOf)
    (hd : request.Declares storeEpoch db.clock)
    (hphys : ∀ epoch want, request.factHighWater = .declared epoch want →
      (ofLex want).1 ≤ physicalMs)
    (hwhole : ¬ Torn request.factHighWater physicalMs db.metaRows) :
    request.Declares storeEpoch asOf := by
  unfold defaultAsOf at h
  split at h
  · cases h
  · obtain rfl := Option.some.inj h
    refine hd.imp_right fun ⟨want, hwant, hpoint⟩ => ⟨want, hwant, ?_⟩
    have hle := hphys _ _ hwant
    simp only [Torn, hwant] at hwhole
    rw [show want = hlc (ofLex want).1 (ofLex want).2 from rfl, hlc_le_iff]
    rw [show want = hlc (ofLex want).1 (ofLex want).2 from rfl, Db.clock, hlc_le_iff] at hpoint
    simp only [not_and] at hwhole
    by_cases hlt : (ofLex want).1 < physicalMs
    · exact Or.inl hlt
    · have heq : (ofLex want).1 = physicalMs := le_antisymm hle (not_lt.mp hlt)
      refine Or.inr ⟨heq, ?_⟩
      by_cases hsame : db.metaRows.hlcPhysicalMs = physicalMs
      · rcases hpoint with hpoint | hpoint
        · omega
        · exact hpoint.2
      · exact not_lt.mp (hwhole hsame heq)

/-- How one stretch of code of a call may end. -/
def Outcome.Ok (w : World) (service : Service) (request : Request) (R : Text) : Outcome → Prop
  | .wait => True
  | .goto phase => phase.Ok w service request R
  | .answer response => ∀ result, response = .ok result → result.Of request R

theorem Outcome.ok_ofExcept {r : Except FaultCode Computation}
    (h : ∀ c, r = .ok c → request.Declares c.storeEpoch c.queryPoint ∧ c.Of R) :
    (Outcome.ofExcept r).Ok w service request R := by
  cases r with
  | error code => exact nofun
  | ok c =>
    rintro result hresult
    obtain rfl := Response.ok.inj hresult
    exact h c rfl

/-- **One stretch of code of a call keeps what is known of it.** -/
theorem advance_ok {call : Call} (env : ServeEnv) (hok : call.Ok w service R)
    (hmachine : service.machine = true → MachineNamed ρ w.delta.machine)
    (hquiet : call.phase.Undisturbed w service call.request) :
    (advance env w service call.request call.phase).Ok w service call.request R := by
  obtain ⟨-, hindex, hphase⟩ := hok
  revert hphase hquiet
  cases call.phase with
  | checked =>
    intro _ hphase
    simp only [advance]
    split
    · exact hphase
    · exact nofun
  | leased =>
    intro _ hphase
    simp only [advance]
    split
    · rename_i hm
      exact ⟨hm.1, hphase⟩
    · exact hphase
  | gate =>
    intro _ hphase
    simp only [advance]
    split
    · exact nofun
    · split
      · exact nofun
      · exact hphase
  | waiting identity =>
    intro _ hphase
    simp only [advance]
    split
    · trivial
    · exact nofun
    · rename_i snapshot hpoll
      split
      · exact nofun
      · rename_i u hcheck
        have hnamed := hmachine hphase.1
        have hserved : w.delta.machine.provider.representationId = R := by
          rw [← hphase.2, World.servedRepresentation, if_pos hphase.1, hnamed.shown]
        refine ⟨?_, checkWatermark_eq_ok hcheck⟩
        rw [← hserved]
        refine hnamed.snapshot snapshot ?_
        unfold pollGate at hpoll
        split at hpoll
        · cases hpoll
        · split at hpoll
          · cases hpoll
          · split at hpoll
            · rename_i s hs
              obtain rfl := Except.ok.inj (Option.some.inj hpoll)
              exact (Option.filter_eq_some_iff.mp hs).1
            · split at hpoll
              · cases hpoll
              · split at hpoll <;> cases hpoll
  | fetched snapshot =>
    intro _ hphase
    refine Outcome.ok_ofExcept fun c hc => ?_
    obtain ⟨hof, hepoch, hpoint⟩ := serveSnapshot_of hc hphase.1 hindex
    rw [hepoch, hpoint]
    exact ⟨hphase.2, hof⟩
  | direct =>
    intro hquiet hphase
    simp only [advance]
    split
    · split
      · rename_i hnull
        intro result hresult
        obtain rfl := Response.ok.inj hresult
        exact hnull
      · exact nofun
    · rename_i hpresent
      rw [not_not] at hpresent
      split
      · exact nofun
      · rename_i storeEpoch point hid
        split
        · exact nofun
        · rename_i u hcheck
          have hclock : point = w.db.clock := by
            unfold readFactsIdentity at hid
            split at hid
            · cases hid
            · exact (Prod.mk.inj (Option.some.inj hid)).2.symm
          exact ⟨(hquiet hpresent).trans hphase, hpresent, hclock ▸ checkWatermark_eq_ok hcheck⟩
  | reading storeEpoch =>
    intro _ hphase
    exact hphase
  | listing storeEpoch physicalMs =>
    intro _ hphase
    simp only [advance]
    split
    · exact nofun
    · exact hphase
  | listed storeEpoch eventIds =>
    intro _ hphase
    refine ⟨hphase.1, hphase.2.1, hphase.2.2, fun epoch want hwant => ?_⟩
    rcases hphase.2.2 with hnull | ⟨want', hwant', hle⟩
    · rw [hnull] at hwant
      cases hwant
    · rw [hwant'] at hwant
      obtain ⟨-, rfl⟩ := FactHighWater.declared.inj hwant
      rw [show want' = hlc (ofLex want').1 (ofLex want').2 from rfl, Db.clock, hlc_le_iff] at hle
      omega
  | pointing storeEpoch eventIds physicalMs =>
    intro hquiet hphase
    obtain ⟨hp, hpresent, hd, hphys⟩ := hphase
    simp only [advance]
    split
    · exact nofun
    · rename_i asOf hasOf
      refine Outcome.ok_ofExcept fun c hc => ?_
      obtain ⟨hof, hepoch, hpoint⟩ := serveDirect_of hc hp hindex
      rw [hepoch, hpoint]
      exact ⟨defaultAsOf_declares hasOf hd hphys hquiet, hof⟩

/-! ## A step of the system -/

theorem Answer.bound_error (service : Option Service) (request : Option Request)
    (code : FaultCode) : Answer.Bound ⟨service, request, .error code⟩ := nofun

/-- What the calls know, in a world that shows them the same. -/
theorem SystemOk.calls_view (h : SystemOk ρ w) (hservice : w'.service = w.service)
    (hcalls : w'.calls = w.calls) (hdelta : w'.delta = w.delta) (hpresent : w'.present = w.present) :
    ∀ call ∈ w'.calls, ∃ service R, w'.service = some service ∧ call.Ok w' service R := by
  intro call hcall
  obtain ⟨service, R, hs, hok⟩ := h.calls call (hcalls ▸ hcall)
  exact ⟨service, R, hservice.trans hs, hok.view hdelta hpresent⟩

theorem SystemOk.answer (h : SystemOk ρ w) {request : Option Request} {response : Response}
    (hbound : Answer.Bound ⟨w.service, request, response⟩) :
    SystemOk ρ (w.answer request response) where
  disk := h.disk
  machine := h.machine
  staged := h.staged
  committed := h.committed
  calls := h.calls_view rfl rfl rfl rfl
  answers answer hanswer := by
    rcases List.mem_append.mp hanswer with hanswer | hanswer
    · exact h.answers answer hanswer
    · exact List.mem_singleton.mp hanswer ▸ hbound

theorem SystemOk.setCalls (h : SystemOk ρ w) {calls : List Call}
    (hcalls : ∀ call ∈ calls, ∃ service R, w.service = some service ∧ call.Ok w service R) :
    SystemOk ρ { w with calls } where
  disk := h.disk
  machine := h.machine
  staged := h.staged
  committed := h.committed
  calls call hcall := by
    obtain ⟨service, R, hs, hok⟩ := hcalls call hcall
    exact ⟨service, R, hs, hok.view rfl rfl⟩
  answers := h.answers

theorem systemOk_receive (h : SystemOk ρ w) (payload : Option Request)
    (hquiet : Undisturbed w (.receive payload)) : SystemOk ρ (receive payload w) := by
  unfold receive
  split
  · exact h.answer (Answer.bound_error _ _ _)
  · rename_i request
    split
    · exact h.answer (Answer.bound_error _ _ _)
    · split
      · exact h.answer (Answer.bound_error _ _ _)
      · rename_i service hs
        split
        · exact h
        · rename_i identity hidentity
          split
          · exact h.answer (Answer.bound_error _ _ _)
          · rename_i hsame
            rw [not_not] at hsame
            refine h.setCalls fun call hcall => ?_
            rcases List.mem_append.mp hcall with hcall | hcall
            · exact h.calls call hcall
            · obtain rfl := List.mem_singleton.mp hcall
              exact ⟨service, _, hs, hsame ▸ hidentity, hquiet service hs, rfl⟩

theorem systemOk_advanceCall (h : SystemOk ρ w) (i : ℕ) (env : ServeEnv)
    (hquiet : Undisturbed w (.advance i env)) : SystemOk ρ (advanceCall i env w) := by
  unfold advanceCall
  split
  · rename_i service call hs hcall
    obtain ⟨service', R, hs', hok⟩ := h.calls call (List.mem_of_getElem? hcall)
    obtain rfl := Option.some.inj (hs.symm.trans hs')
    have houtcome : (next env w service call).Ok w service call.request R := by
      unfold next
      split
      · exact nofun
      · exact advance_ok env hok (fun hm => h.machine (World.machineRuns_of hs hm))
          (hquiet service hs call hcall)
    split
    · exact h
    · rename_i phase hgoto
      rw [hgoto] at houtcome
      refine h.setCalls fun call' hcall' => ?_
      rcases List.mem_or_eq_of_mem_set hcall' with hcall' | rfl
      · exact h.calls call' hcall'
      · exact ⟨service, R, hs, hok.identity, hok.index, houtcome⟩
    · rename_i response hanswer
      rw [hanswer] at houtcome
      have hrest : SystemOk ρ { w with calls := w.calls.eraseIdx i } :=
        h.setCalls fun call' hcall' => h.calls call' (List.mem_of_mem_eraseIdx hcall')
      refine hrest.answer fun result hresult => ?_
      exact ⟨service, call.request, R, hs, rfl, hok.identity, houtcome result hresult⟩
  · exact h

theorem SystemOk.setDelta (h : SystemOk ρ w) {delta : Delta.World}
    (hruns : w.machineRuns = true) (hkeeps : KeepsNamed ρ w.delta delta) :
    SystemOk ρ { w with delta } where
  disk := hkeeps.disk
  machine _ := hkeeps.machine
  staged := h.staged
  committed := h.committed
  calls := by
    refine h.calls_congr rfl rfl (fun _ service hs => ?_) fun _ hpresent => ⟨hpresent, ?_⟩
    · exact servedRepresentation_congr (fun _ => h.machine hruns) (fun _ => hkeeps.machine)
        fun _ => congrArg Provider.representationId hkeeps.provider
    · show w.delta.facts.db.clock ≤ delta.facts.db.clock
      rw [hkeeps.facts]
  answers := h.answers

/-- Other facts, while no call reads them. -/
theorem SystemOk.setFacts (h : SystemOk ρ w) (facts : FactStore.World) (present : Bool)
    (hreads : (∃ call ∈ w.calls, call.phase.leases = true) → w.present = true →
      present = true ∧ w.db.clock ≤ facts.db.clock) :
    SystemOk ρ { w with delta := { w.delta with facts }, present } where
  disk := ⟨h.disk.generations, h.disk.files⟩
  machine := h.machine
  staged := h.staged
  committed := h.committed
  calls := h.calls_congr rfl rfl (fun _ _ _ => rfl) hreads
  answers := h.answers

/-- A new process. -/
theorem systemOk_start (h : SystemOk ρ w) (service : Service) (env : StartEnv)
    (hnames : Names ρ w (.start service env)) : SystemOk ρ (start service env w) := by
  unfold start
  by_cases hm : service.machine = true
  · obtain ⟨hdisk, hmachine, -⟩ := startMachine_named h.disk env (hnames hm).1 (hnames hm).2
    simp only [if_pos hm]
    exact ⟨hdisk, fun _ => hmachine, by rintro _ ⟨⟩, by rintro _ ⟨⟩, by rintro _ ⟨⟩, h.answers⟩
  · simp only [if_neg hm]
    refine ⟨h.disk.setMachine _, fun hruns => ?_, by rintro _ ⟨⟩,
      by rintro _ ⟨⟩, by rintro _ ⟨⟩, h.answers⟩
    simp only [World.machineRuns] at hruns
    split at hruns
    · simp [hm] at hruns
    · cases hruns

/-- **A step that meets the condition keeps the invariant.** -/
theorem systemOk_step {action : Action} (hnames : Names ρ w action)
    (hquiet : Undisturbed w action) (h : SystemOk ρ w) : SystemOk ρ (step w action) := by
  cases action with
  | facts call =>
    simp only [step]
    split
    · rename_i hpresent
      exact h.setFacts _ w.present fun _ _ => ⟨hpresent, (extends_step w.delta.facts call).clock⟩
    · exact h
  | create facts =>
    simp only [step]
    split
    · exact h
    · rename_i habsent
      exact h.setFacts facts true fun _ hpresent => absurd hpresent habsent
  | prepare =>
    exact ⟨h.disk, h.machine, h.staged, h.committed, h.calls_view rfl rfl rfl rfl, h.answers⟩
  | replace facts =>
    simp only [step]
    split
    · exact h
    · rename_i hidle
      refine h.setFacts _ _ fun ⟨call, hcall, hlease⟩ _ => absurd ?_ hidle
      exact Or.inr (List.any_eq_true.mpr ⟨call, hcall, hlease⟩)
  | resume =>
    exact ⟨h.disk, h.machine, h.staged, h.committed, h.calls_view rfl rfl rfl rfl, h.answers⟩
  | start service env => exact systemOk_start h service env hnames
  | worker action =>
    simp only [step]
    split
    · rename_i hruns
      refine h.setDelta hruns.1 (worker_named h.disk (h.machine hruns.1) hruns.2 ?_)
      rintro env rfl
      exact hnames
    · exact h
  | invalidate dropOk =>
    simp only [step]
    split
    · rename_i hruns
      exact h.setDelta hruns (invalidate_named h.disk (h.machine hruns) dropOk)
    · exact h
  | stage env =>
    simp only [step]
    split
    · exact ⟨h.disk, h.machine, fun s hs => stageGeneration_named hs hnames, h.committed,
        h.calls_view rfl rfl rfl rfl, h.answers⟩
    · exact h
  | commit env =>
    simp only [step]
    split
    · exact h
    · rename_i staged hstaged
      have hcommit := commitPublication_named h.disk env (h.staged staged hstaged)
      refine ⟨hcommit.disk, fun hruns => hcommit.machine ▸ h.machine hruns, h.staged,
        fun p hp => ?_, ?_, h.answers⟩
      · rcases List.mem_append.mp hp with hp | hp
        · exact h.committed p hp
        · exact hcommit.publication p (by simpa using hp)
      · refine h.calls_congr rfl rfl (fun _ service _ => ?_) fun _ hpresent => ⟨hpresent, ?_⟩
        · show World.servedRepresentation { w with delta := _ } service = _
          rw [World.servedRepresentation, World.servedRepresentation, hcommit.machine]
        · show w.delta.facts.db.clock ≤ (commitPublication env staged w.delta).1.facts.db.clock
          rw [hcommit.facts]
  | switch publication env =>
    simp only [step]
    split
    · rename_i hready
      obtain ⟨hruns, hcommitted⟩ := hready
      have hm := h.machine hruns
      obtain ⟨hdisk, hmachine, hprovider, hfacts⟩ :=
        performPublishSwitch_named h.disk hm env (h.committed publication hcommitted)
      refine ⟨hdisk, fun _ => hmachine, h.staged, h.committed, ?_, h.answers⟩
      refine h.calls_congr rfl rfl (fun hcalls service _ => ?_) fun _ hpresent => ⟨hpresent, ?_⟩
      · refine servedRepresentation_congr (fun _ => hm) (fun _ => hmachine) fun _ => ?_
        rcases hprovider with heq | heq
        · exact congrArg Provider.representationId heq
        · exact (congrArg Provider.representationId heq).trans (hquiet hcalls)
      · show w.delta.facts.db.clock ≤
          (performPublishSwitch env publication w.delta).facts.db.clock
        rw [hfacts]
    · exact h
  | receive payload => exact systemOk_receive h payload hquiet
  | advance i env => exact systemOk_advanceCall h i env hquiet

/-- Nothing is derived, and nobody asks. -/
theorem systemOk_created (ρ : Text → Text) (facts : FactStore.World) :
    SystemOk ρ (World.created facts) where
  disk := ⟨List.forall_mem_nil _, fun _ => List.forall_mem_nil _⟩
  machine hruns := absurd hruns Bool.false_ne_true
  staged s hs := absurd hs.symm (Option.some_ne_none s)
  committed _ hp := absurd hp List.not_mem_nil
  calls _ hcall := absurd hcall List.not_mem_nil
  answers _ hanswer := absurd hanswer List.not_mem_nil

/-- **Evidence is computed under the identity it declares**, in every run that no publication, index,
store or clock disturbs. -/
theorem evidence_bound (ρ : Text → Text) (facts : FactStore.World) (as : List Action)
    (hnames : Along step (Names ρ) (World.created facts) as)
    (hquiet : Along step Undisturbed (World.created facts) as) :
    ∀ answer ∈ (run step (World.created facts) as).answers, answer.Bound := by
  have hok : SystemOk ρ (run step (World.created facts) as) :=
    run_invariant_along (P := fun w a => Names ρ w a ∧ Undisturbed w a)
      (fun w a hcond h => systemOk_step hcond.1 hcond.2 h) (systemOk_created ρ facts)
      (along_and.mpr ⟨hnames, hquiet⟩)
  exact hok.answers

/-! ## A run -/

/-- A service whose identity is short. -/
def sampleService : Service where
  provider := ⟨[1], 1, false⟩
  params := ⟨[], 1, [], []⟩
  gamma := []
  machine := true

def sampleRequest (representationId : Text) : Request where
  requestId := [3]
  planIdentity := [3]
  schemaId := [3]
  category := [3]
  canonicalSegmentInput := [3]
  precedingText := []
  candidates := [[3]]
  configIdentity := (sampleService.identityOf representationId).getD []
  factHighWater := .declared [14] (hlc 5 0)

/-- A process that serves `[1]`, and a publication of `[2]` committed next to it. -/
def samplePublication : List Action :=
  [.start sampleService
      { provider := ⟨[1], 1, false⟩, declaredGenerationId := [1], generation := { newId := [1] } },
    .stage { provider := ⟨[2], 1, false⟩, generation := { newId := [2] } },
    .commit {}]

def sampleSwitch : Action := .switch ⟨[2], ⟨[2], 1, false⟩, [14]⟩ {}

/-- A call from its identity check to its answer, with what happens between its check and its
snapshot. -/
def sampleCall (request : Request) (between : List Action) : List Action :=
  .receive (some request) :: between ++ List.replicate 5 (.advance 0 {})

def sampleFacts : FactStore.World := FactStore.World.created 5 [] [14]

def sampleAnswer (request : Request) (representationId : Text) : Answer where
  service := some sampleService
  request := some request
  response := .ok (.computed
    { storeEpoch := [14], queryPoint := hlc 5 0, representationId
      queryVectors := [⟨representationId, [], none⟩], eventVectors := [], index := none })

/-- A call that nothing disturbs, after the switch to `[2]`. -/
theorem evidence_bound_sample :
    (run step (World.created sampleFacts)
        (samplePublication ++ sampleSwitch :: sampleCall (sampleRequest [2]) [])).answers =
      [sampleAnswer (sampleRequest [2]) [2]] ∧
      ∀ answer ∈ (run step (World.created sampleFacts)
        (samplePublication ++ sampleSwitch :: sampleCall (sampleRequest [2]) [])).answers,
          answer.Bound := by
  refine ⟨by decide, evidence_bound id sampleFacts _ ?_ (by decide)⟩
  simp [samplePublication, sampleSwitch, sampleCall, List.replicate, Names]

/-- **An answer may be computed under another identity than it declares.**  The publication of
`[2]` is switched to between the check of `[1]` and the snapshot. -/
theorem evidence_mixed :
    ∃ answer ∈ (run step (World.created sampleFacts)
      (samplePublication ++ sampleCall (sampleRequest [1]) [sampleSwitch])).answers,
        ¬ answer.Bound := by
  refine ⟨sampleAnswer (sampleRequest [1]) [2], by decide, fun hbound => ?_⟩
  obtain ⟨service, request, R, hs, hrequest, hR, -, hof⟩ := hbound _ rfl
  obtain rfl := Option.some.inj hs
  obtain rfl := Option.some.inj hrequest
  obtain rfl : [2] = R := hof.representation
  exact absurd hR (by decide)

end Evidence
end SemanticMemory
