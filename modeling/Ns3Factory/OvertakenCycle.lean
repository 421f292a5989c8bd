import Ns3Factory.CallbackEffects

/-!
A cycle that shares the store with others.

While a cycle runs, others may commit. Its close compares versions, and every commit takes the
next version. So a cycle that was started from a store commits on that very store, before any
other does, or not at all: once another commit has overtaken it, its close is refused.
-/

namespace Ns3Factory

open Transition

namespace CommitService

/-- An accepted commit leads from one store to the other. -/
def Commits (store next : WorldStateStore) : Prop :=
  ∃ expectedVersion delta, commitCycle store expectedVersion delta = (.ok (), next)

/-- Accepted commits lead from one store to the other. -/
abbrev CommitsTo : WorldStateStore → WorldStateStore → Prop := Relation.ReflTransGen Commits

lemma CommitsTo.version {store next : WorldStateStore} (h : CommitsTo store next) :
    next = store ∨ store.currentSnapshot.version < next.currentSnapshot.version := by
  induction h with
  | refl => exact Or.inl rfl
  | tail _ hcommit ih =>
    obtain ⟨expectedVersion, delta, hok⟩ := hcommit
    have hlt := (committed_of_ok hok).2.version_lt
    rcases ih with rfl | ih
    · exact Or.inr hlt
    · exact Or.inr (ih.trans hlt)

end CommitService

namespace SignalLifecycle

open CommitService

section

variable [DoubleArithmetic] {providers : Providers}

/-- Along the moves the rest of the platform changes the store by commits only. -/
def SharesStore (providers : Providers) : SignalLifecycle → List Move → Prop
  | _, [] => True
  | c, m :: moves =>
    (∀ services workingState store, m = .change services workingState store →
      CommitsTo c.runtime.store store) ∧
    ∀ next, c.step providers m = some next → SharesStore providers next moves

lemma sharesStore_of_unchanged {c : SignalLifecycle} {moves : List Move}
    (h : ∀ m ∈ moves, m.isChange = false) : SharesStore providers c moves := by
  induction moves generalizing c with
  | nil => trivial
  | cons m moves ih =>
    refine ⟨?_, fun next _ => ih fun m hm => h m (List.mem_cons_of_mem _ hm)⟩
    rintro services workingState store rfl
    cases h _ List.mem_cons_self

lemma sharesStore_append {c : SignalLifecycle} {before after : List Move} :
    SharesStore providers c (before ++ after) ↔ SharesStore providers c before ∧
      ∀ mid, Leads providers c before mid → SharesStore providers mid after := by
  induction before generalizing c with
  | nil =>
    refine ⟨fun h => ⟨trivial, fun mid hmid => ?_⟩, fun h => h.2 c rfl⟩
    cases hmid
    exact h
  | cons m before ih =>
    constructor
    · rintro ⟨hm, hrest⟩
      refine ⟨⟨hm, fun next hstep => (ih.mp (hrest next hstep)).1⟩, fun mid hmid => ?_⟩
      obtain ⟨next, hstep, hnext⟩ := run_cons_eq_some.mp hmid
      exact (ih.mp (hrest next hstep)).2 mid hnext
    · rintro ⟨⟨hm, hrest⟩, hafter⟩
      refine ⟨hm, fun next hstep => ih.mpr ⟨hrest next hstep, fun mid hmid => ?_⟩⟩
      exact hafter mid (run_cons_eq_some.mpr ⟨next, hstep, hmid⟩)

/-- **The callback rule beside other cycles.** What every callback keeps, and every commit of
others, holds of the runtime wherever the moves lead. -/
lemma SharesStore.invariant {P : CycleSignalRuntime → Prop}
    (hcalled : ∀ r sessions event r' sessions', P r →
      Called providers r sessions event r' sessions' → P r')
    (hcommits : ∀ (r : CycleSignalRuntime) services workingState store, P r →
      CommitsTo r.store store →
      P { r with services := services, workingState := workingState, store := store })
    {c c' : SignalLifecycle} {moves : List Move} (hshares : SharesStore providers c moves)
    (hleads : Leads providers c moves c') (h : P c.runtime) : P c'.runtime := by
  induction moves generalizing c with
  | nil =>
    cases hleads
    exact h
  | cons m moves ih =>
    obtain ⟨next, hstep, hrest⟩ := run_cons_eq_some.mp hleads
    refine ih (hshares.2 next hstep) hrest ?_
    cases step_sound hstep with
    | schedule | drive | finish => exact h
    | change services workingState store hc =>
      exact hcommits _ _ _ _ h (hshares.1 services workingState store rfl)
    | callback time record status next' system hc hcall hs =>
      have hmade := called_of_call hcall
      exact hcalled _ _ _ _ _ h hmade

/-- Until the cycle commits, only others have; its own commit was the first. -/
structure FirstOrOpen (store : WorldStateStore) (closeTime : SimTime) (r : CycleSignalRuntime) :
    Prop where
  close : r.cycleCloseTime = closeTime
  expected : r.expectedVersion = store.currentSnapshot.version
  before : r.committed = false → CommitsTo store r.store
  after : r.committed = true → ∃ (w : CycleWorkingState) (delta : DeltaSet)
    (own : WorldStateStore), w.finalizeDeltaSet closeTime = .ok delta ∧
      commitCycle store store.currentSnapshot.version delta = (.ok (), own) ∧
      CommitsTo own r.store

lemma FirstOrOpen.called {store : WorldStateStore} {closeTime : SimTime}
    {r r' : CycleSignalRuntime}
    {sessions sessions' : List (TransmissionExecutionRequest × TransmissionSession)}
    {event : CycleEvent} (h : FirstOrOpen store closeTime r)
    (hcalled : Called providers r sessions event r' sessions') :
    FirstOrOpen store closeTime r' := by
  cases hcalled with
  | refused | unsent | sent | arrived | unprocessed | processed =>
    exact ⟨h.close, h.expected, h.before, h.after⟩
  | closed delta own hopen hdelta hcommit =>
    refine ⟨h.close, h.expected, fun hnot => (by cases hnot), fun _ =>
      ⟨r.workingState, delta, own, h.close ▸ hdelta, ?_, .refl⟩⟩
    -- the version is still the expected one, so nobody has committed
    have hexpected := (committed_of_ok hcommit).1.expected
    rw [h.expected] at hexpected hcommit
    rcases (h.before hopen).version with hsame | hlt
    · rw [hsame] at hcommit
      exact hcommit
    · exact absurd hexpected hlt.ne

lemma FirstOrOpen.commits {store : WorldStateStore} {closeTime : SimTime}
    {r : CycleSignalRuntime} (h : FirstOrOpen store closeTime r) (services : Services)
    (workingState : CycleWorkingState) {next : WorldStateStore}
    (hcommits : CommitsTo r.store next) :
    FirstOrOpen store closeTime
      { r with services := services, workingState := workingState, store := next } := by
  refine ⟨h.close, h.expected, fun hopen => (h.before hopen).trans hcommits, fun hdone => ?_⟩
  obtain ⟨w, delta, own, hdelta, hcommit, hlater⟩ := h.after hdone
  exact ⟨w, delta, own, hdelta, hcommit, hlater.trans hcommits⟩

/-- Others have committed since the version that the open cycle expects. -/
def Overtaken (r : CycleSignalRuntime) : Prop :=
  r.committed = false ∧ r.expectedVersion < r.store.currentSnapshot.version

lemma Overtaken.called {r r' : CycleSignalRuntime}
    {sessions sessions' : List (TransmissionExecutionRequest × TransmissionSession)}
    {event : CycleEvent} (h : Overtaken r)
    (hcalled : Called providers r sessions event r' sessions') : Overtaken r' := by
  cases hcalled with
  | refused | unsent | sent | arrived | unprocessed | processed => exact h
  | closed delta own hopen hdelta hcommit =>
    exact absurd (committed_of_ok hcommit).1.expected h.2.ne

omit [DoubleArithmetic] in
lemma Overtaken.commits {r : CycleSignalRuntime} (h : Overtaken r) (services : Services)
    (workingState : CycleWorkingState) {next : WorldStateStore}
    (hcommits : CommitsTo r.store next) :
    Overtaken { r with services := services, workingState := workingState, store := next } := by
  refine ⟨h.1, ?_⟩
  rcases hcommits.version with rfl | hlt
  · exact h.2
  · exact h.2.trans hlt

lemma Overtaken.handleCycleClose {r : CycleSignalRuntime} (h : Overtaken r)
    (closeTime : SimTime) : ∃ e, r.handleCycleClose closeTime = (.error e, r) := by
  rcases r.handleCycleClose_cases closeTime with ⟨delta, own, -, -, -, -, hcommit, -⟩ | herr
  · exact absurd (committed_of_ok hcommit).1.expected h.2.ne
  · exact herr

/-- **First or never.** Let an open cycle expect the current version, and run beside others that
commit to the same store. As long as it is open, only others have committed. If it commits, it
does so on the store it was started from, and all other commits follow its own. Once another
commit has been made while it is open, it stays open, and its close is refused at any time. -/
theorem commits_first_or_never {start c : SignalLifecycle} {moves : List Move}
    (hopen : start.runtime.committed = false)
    (hexpected : start.runtime.expectedVersion =
      start.runtime.store.currentSnapshot.version)
    (hshares : SharesStore providers start moves) (hleads : Leads providers start moves c) :
    (c.runtime.committed = false → CommitsTo start.runtime.store c.runtime.store) ∧
    (c.runtime.committed = true → ∃ (w : CycleWorkingState) (delta : DeltaSet)
      (own : WorldStateStore), w.finalizeDeltaSet start.runtime.cycleCloseTime = .ok delta ∧
        commitCycle start.runtime.store start.runtime.expectedVersion delta = (.ok (), own) ∧
        CommitsTo own c.runtime.store) ∧
    ∀ before after mid, moves = before ++ after → Leads providers start before mid →
      mid.runtime.committed = false → mid.runtime.store ≠ start.runtime.store →
      c.runtime.committed = false ∧
        ∀ time, ∃ e, c.runtime.handleCycleClose time = (.error e, c.runtime) := by
  have hfirst : ∀ {earlier : List Move} {next : SignalLifecycle},
      SharesStore providers start earlier → Leads providers start earlier next →
      FirstOrOpen start.runtime.store start.runtime.cycleCloseTime next.runtime := by
    intro earlier next hshares hleads
    refine hshares.invariant (fun _ _ _ _ _ h hcalled => h.called hcalled)
      (fun _ services workingState _ h hcommits => h.commits services workingState hcommits)
      hleads ⟨rfl, hexpected, fun _ => .refl, fun hdone => ?_⟩
    rw [hopen] at hdone
    cases hdone
  have hend := hfirst hshares hleads
  refine ⟨hend.before, hexpected ▸ hend.after, ?_⟩
  rintro before after mid rfl hmid hstill hchanged
  have hbefore := hfirst (sharesStore_append.mp hshares).1 hmid
  have hrest : Leads providers mid after c := by
    obtain ⟨mid', hmid', hrest⟩ := run_append_eq_some.mp hleads
    rw [hmid] at hmid'
    cases hmid'
    exact hrest
  have hovertaken : Overtaken c.runtime := by
    refine ((sharesStore_append.mp hshares).2 mid hmid).invariant
      (fun _ _ _ _ _ h hcalled => h.called hcalled)
      (fun _ services workingState _ h hcommits => h.commits services workingState hcommits)
      hrest ⟨hstill, ?_⟩
    rw [hbefore.expected]
    exact (hbefore.before hstill).version.resolve_left hchanged
  exact ⟨hovertaken.1, hovertaken.handleCycleClose⟩

end

open ReceiverProcessor

/-- Another cycle leaves both nodes at rest at time 3. -/
def rivalDelta : DeltaSet :=
  ⟨⟨1⟩, ⟨0⟩, .ofUInt32 3, [⟨restingNode ⟨0⟩⟩, ⟨restingNode ⟨1⟩⟩]⟩

def rivalStore : WorldStateStore := (commitCycle pairInit.runtime.store ⟨0⟩ rivalDelta).2

/-- Node 0 sends, and at time 4 others take over. -/
def movesBeforeRival : List Move :=
  [.schedule (.ofUInt32 9) .cycleClose, .schedule (.ofUInt32 0) (.txStart pairRequest),
    .schedule (.ofUInt32 4) (.other .kTxStart), .run, .fire ⟨0, .ofUInt32 0⟩, .next, .callback,
    .next, .fire ⟨1, .ofUInt32 1⟩, .next, .callback, .next, .fire ⟨2, .ofUInt32 2⟩, .next,
    .callback, .next, .fire ⟨4, .ofUInt32 4⟩, .next]

/-- The other cycle commits. -/
def rivalCommit : Move := .change CycleSignalRuntime.freshServices pairWorkingState rivalStore

/-- The cycle comes to its close. -/
def movesAfterRival : List Move :=
  [.finish (.ok ()), .next, .fire ⟨9, .ofUInt32 9⟩, .next, .callback, .next]

theorem commits_first_or_never_rival :
    ∃ c, Leads (bandProviders 1000 100) pairInit
        (movesBeforeRival ++ rivalCommit :: movesAfterRival) c ∧
      c.runtime.results.sessions.length = 1 ∧ c.runtime.committed = false ∧
      ∀ time, ∃ e, c.runtime.handleCycleClose time = (.error e, c.runtime) := by
  have hrun : (run (step (bandProviders 1000 100)) pairInit
      (movesBeforeRival ++ rivalCommit :: movesAfterRival)).map
        (fun c => c.runtime.results.sessions.length) = some 1 := by decide +kernel
  have hmid : (run (step (bandProviders 1000 100)) pairInit movesBeforeRival).map
      (fun c => (c.runtime.committed, c.isOutside)) = some (false, true) := by decide +kernel
  obtain ⟨c, hc, hsessions⟩ := Option.map_eq_some_iff.mp hrun
  obtain ⟨mid, hleads, hval⟩ := Option.map_eq_some_iff.mp hmid
  obtain ⟨hopen, houtside⟩ := Prod.mk.inj hval
  have hnone : ∀ m ∈ movesBeforeRival, m.isChange = false := by
    simp [movesBeforeRival, Move.isChange]
  have hstore : mid.runtime.store = pairInit.runtime.store :=
    (stands_of_leads (w := pairWorkingState) hnone hleads).before hopen
  have hrival : (commitCycle pairInit.runtime.store ⟨0⟩ rivalDelta).1 = .ok () := by
    decide +kernel
  have hshares : SharesStore (bandProviders 1000 100) pairInit
      (movesBeforeRival ++ rivalCommit :: movesAfterRival) := by
    refine sharesStore_append.mpr ⟨sharesStore_of_unchanged hnone, fun mid' hmid' => ⟨?_, ?_⟩⟩
    · rintro services workingState store ⟨⟩
      obtain rfl := Option.some.inj (hleads.symm.trans hmid')
      rw [hstore]
      exact .single ⟨⟨0⟩, rivalDelta, Prod.ext hrival rfl⟩
    · exact fun next _ => sharesStore_of_unchanged (by simp [movesAfterRival, Move.isChange])
  have hnext : Leads (bandProviders 1000 100) pairInit (movesBeforeRival ++ [rivalCommit])
      { mid with runtime := { mid.runtime with
        services := CycleSignalRuntime.freshServices, workingState := pairWorkingState
        store := rivalStore } } :=
    run_concat_eq_some.mpr ⟨mid, hleads, if_pos houtside⟩
  refine ⟨c, hc, hsessions, (commits_first_or_never (by decide) (by decide) hshares hc).2.2
    (movesBeforeRival ++ [rivalCommit]) movesAfterRival _ (by simp) hnext hopen fun heq => ?_⟩
  have hversion : rivalStore.currentSnapshot.version ≠
      pairInit.runtime.store.currentSnapshot.version := by decide +kernel
  exact hversion (congrArg (fun store => store.currentSnapshot.version) heq)

end SignalLifecycle

end Ns3Factory
