import Mathlib.Data.List.Sort
import ActionRegistry.Proofs.Registration.Consistency

/-!
# Registration is local

What a registration adds does not depend on what is there. The registry only has to have room for
the new names. So registering is known from what it does to the empty registry: elsewhere it
succeeds where that succeeds and shares no name with what is there, and then the result is the two
registries joined. Work like this is called local here. Local work one after the other is local,
since joining is associative and empty registries are neutral, and so whole scripts are local.
-/

namespace ActionRegistry

/-! ### Joining registries -/

namespace SortedMap

variable {α : Type}

theorem eq_of_get?_eq {m m' : SortedMap α} (h : ∀ key, m.get? key = m'.get? key) : m = m' := by
  have hirrefl : Std.Irrefl fun a b : String × α => a.1 < b.1 := ⟨fun a => String.lt_irrefl a.1⟩
  have hantisymm : Std.Antisymm fun a b : String × α => a.1 < b.1 :=
    ⟨fun a b hab hba => absurd hba (String.lt_asymm hab)⟩
  refine ext (List.Pairwise.eq_of_mem_iff m.ascending m'.ascending fun e => ?_)
  obtain ⟨key, value⟩ := e
  rw [← get?_eq_some_iff, ← get?_eq_some_iff, h]

/-- The entries of both maps, those of the second for the keys of both. -/
def union (m m' : SortedMap α) : SortedMap α :=
  m'.entries.foldr (fun e joined => joined.insert e.1 e.2) m

theorem get?_union (m m' : SortedMap α) (key : String) :
    (m.union m').get? key = (m'.get? key).or (m.get? key) := by
  have hfold : ∀ entries : List (String × α),
      (entries.foldr (fun e joined => joined.insert e.1 e.2) m).get? key
        = (entries.lookup key).or (m.get? key) := by
    intro entries
    induction entries with
    | nil => rfl
    | cons e rest ih =>
      rw [List.foldr_cons, get?_insert, ih, lookup_cons_eq_ite]
      split <;> rfl
  exact hfold m'.entries

@[simp] theorem union_empty (m : SortedMap α) : m.union empty = m := rfl

@[simp] theorem empty_union (m : SortedMap α) : empty.union m = m := by
  refine eq_of_get?_eq fun key => ?_
  rw [get?_union, get?_empty, Option.or_none]

theorem union_assoc (m m' m'' : SortedMap α) :
    (m.union m').union m'' = m.union (m'.union m'') := by
  refine eq_of_get?_eq fun key => ?_
  simp only [get?_union, Option.or_assoc]

end SortedMap

namespace Registry

/-- The actions and callbacks of both registries, the actions of the first in front. -/
def join (r s : Registry) : Registry := ⟨r.actions ++ s.actions, r.callbacks.union s.callbacks⟩

/-- Two registries without a common name. -/
structure Apart (r s : Registry) : Prop where
  actions : ∀ a ∈ r.actions, ∀ b ∈ s.actions, a.name ≠ b.name
  callbacks : ∀ key ∈ r.callbackNames, key ∉ s.callbackNames

variable {r s t : Registry}

theorem mem_callbackNames_iff {key : String} :
    key ∈ r.callbackNames ↔ ∃ callback, r.callback? key = some callback :=
  r.callbacks.mem_keys_iff

theorem not_mem_callbackNames_iff {key : String} :
    key ∉ r.callbackNames ↔ r.callback? key = none := by
  rw [mem_callbackNames_iff, ← Option.ne_none_iff_exists', not_not]

@[simp] theorem actions_join : (r.join s).actions = r.actions ++ s.actions := rfl

theorem callback?_join (r s : Registry) (key : String) :
    (r.join s).callback? key = (s.callback? key).or (r.callback? key) :=
  SortedMap.get?_union r.callbacks s.callbacks key

theorem mem_callbackNames_join {key : String} :
    key ∈ (r.join s).callbackNames ↔ key ∈ r.callbackNames ∨ key ∈ s.callbackNames := by
  simp only [mem_callbackNames_iff, ← Option.isSome_iff_exists, callback?_join, Option.isSome_or,
    Bool.or_eq_true]
  exact or_comm

@[simp] theorem join_empty (r : Registry) : r.join .empty = r := by
  obtain ⟨actions, callbacks⟩ := r
  simp [join, empty]

@[simp] theorem empty_join (r : Registry) : empty.join r = r := by
  obtain ⟨actions, callbacks⟩ := r
  simp [join, empty]

theorem join_assoc (r s t : Registry) : (r.join s).join t = r.join (s.join t) := by
  simp only [join, List.append_assoc, SortedMap.union_assoc]

theorem Apart.symm (h : r.Apart s) : s.Apart r :=
  ⟨fun b hb a ha => (h.actions a ha b hb).symm, fun key hs hr => h.callbacks key hr hs⟩

@[simp] theorem apart_empty (r : Registry) : r.Apart .empty := ⟨nofun, nofun⟩

@[simp] theorem empty_apart (r : Registry) : empty.Apart r := (apart_empty r).symm

theorem apart_join_iff : t.Apart (r.join s) ↔ t.Apart r ∧ t.Apart s := by
  constructor
  · intro h
    have hactions := h.actions
    have hcallbacks := h.callbacks
    simp only [actions_join, List.mem_append, mem_callbackNames_join, not_or] at hactions hcallbacks
    exact ⟨⟨fun a ha b hb => hactions a ha b (.inl hb), fun key hkey => (hcallbacks key hkey).1⟩,
      ⟨fun a ha b hb => hactions a ha b (.inr hb), fun key hkey => (hcallbacks key hkey).2⟩⟩
  · rintro ⟨hr, hs⟩
    refine ⟨fun a ha b hb => ?_, fun key hkey => ?_⟩
    · exact (List.mem_append.1 hb).elim (hr.actions a ha b) (hs.actions a ha b)
    · rw [mem_callbackNames_join, not_or]
      exact ⟨hr.callbacks key hkey, hs.callbacks key hkey⟩

theorem join_apart_iff : (r.join s).Apart t ↔ r.Apart t ∧ s.Apart t := by
  rw [← and_congr (Iff.intro Apart.symm Apart.symm) (Iff.intro Apart.symm Apart.symm),
    ← apart_join_iff]
  exact ⟨Apart.symm, Apart.symm⟩

theorem apart_action_iff {a : Action} : r.Apart ⟨[a], .empty⟩ ↔ r.action? a.name = none := by
  rw [action?_eq_none_iff]
  constructor
  · intro h b hb
    exact h.actions b hb a (List.mem_singleton_self a)
  · intro h
    refine ⟨fun b hb c hc => ?_, nofun⟩
    rw [List.mem_singleton.1 hc]
    exact h b hb

theorem apart_callback_iff {a : Action} {key : String} {callback : Callback} :
    r.Apart ⟨[a], SortedMap.empty.insert key callback⟩
      ↔ r.action? a.name = none ∧ r.callbacks.get? key = none := by
  have hnames : (⟨[a], SortedMap.empty.insert key callback⟩ : Registry).callbackNames = [key] := rfl
  constructor
  · intro h
    refine ⟨apart_action_iff.1 ⟨h.actions, nofun⟩, ?_⟩
    have hkey := h.symm.callbacks key (hnames ▸ List.mem_singleton_self key)
    exact not_mem_callbackNames_iff.1 hkey
  · rintro ⟨haction, hkey⟩
    refine ⟨(apart_action_iff.2 haction).actions, fun k hk hmem => ?_⟩
    rw [hnames, List.mem_singleton] at hmem
    exact not_mem_callbackNames_iff.2 hkey (hmem ▸ hk)

end Registry

/-! ### Local work -/

/-- Work that on any registry does what it does on the empty one, where there is room for that. -/
def IsLocal {α : Type} (work : Registry → Result (Registry × α)) : Prop :=
  ∀ r s, work r = .ok s ↔
    ∃ own, work .empty = .ok (own, s.2) ∧ r.Apart own ∧ s.1 = r.join own

namespace IsLocal

variable {α β : Type}

/-- Work is local if what it adds does not depend on the registry. -/
theorem of_adds {work : Registry → Result (Registry × α)} (adds : Registry → α → Prop)
    (h : ∀ r s, work r = .ok s ↔ ∃ own, adds own s.2 ∧ r.Apart own ∧ s.1 = r.join own) :
    IsLocal work := by
  have hempty : ∀ own a, work .empty = .ok (own, a) ↔ adds own a := by
    intro own a
    rw [h]
    simp
  intro r s
  simp only [hempty, h]

theorem pure (a : α) : IsLocal fun r => .ok (r, a) := by
  refine of_adds (fun own a' => own = .empty ∧ a' = a) fun r s => ?_
  obtain ⟨r', a'⟩ := s
  constructor
  · intro hs
    cases hs
    exact ⟨.empty, ⟨rfl, rfl⟩, Registry.apart_empty r, (Registry.join_empty r).symm⟩
  · rintro ⟨_, ⟨rfl, rfl⟩, _, hjoin⟩
    obtain rfl : r' = r := hjoin.trans (Registry.join_empty r)
    rfl

theorem fail (e : Error) : IsLocal fun _ => (.error e : Result (Registry × α)) :=
  of_adds (fun _ _ => False) fun r s => by simp

theorem bind {work : Registry → Result (Registry × α)} (hwork : IsLocal work)
    {next : α → Registry → Result (Registry × β)} (hnext : ∀ a, IsLocal (next a)) :
    IsLocal fun r => work r >>= fun s => next s.2 s.1 := by
  refine of_adds (fun own b => ∃ first a second, work .empty = .ok (first, a)
    ∧ next a .empty = .ok (second, b) ∧ first.Apart second ∧ own = first.join second) fun r s => ?_
  constructor
  · intro hs
    cases hfirst : work r with
    | error e => simp [hfirst] at hs
    | ok mid =>
      rw [hfirst, Result.ok_bind] at hs
      obtain ⟨first, hown₁, hapart₁, hjoin₁⟩ := (hwork r mid).1 hfirst
      obtain ⟨second, hown₂, hapart₂, hjoin₂⟩ := (hnext mid.2 mid.1 s).1 hs
      rw [hjoin₁, Registry.join_apart_iff] at hapart₂
      rw [hjoin₁, Registry.join_assoc] at hjoin₂
      exact ⟨first.join second, ⟨first, mid.2, second, hown₁, hown₂, hapart₂.2, rfl⟩,
        Registry.apart_join_iff.2 ⟨hapart₁, hapart₂.1⟩, hjoin₂⟩
  · rintro ⟨_, ⟨first, a, second, hown₁, hown₂, hapart, rfl⟩, hroom, hjoin⟩
    obtain ⟨hroom₁, hroom₂⟩ := Registry.apart_join_iff.1 hroom
    have hfirst : work r = .ok (r.join first, a) := (hwork r _).2 ⟨first, hown₁, hroom₁, rfl⟩
    rw [hfirst, Result.ok_bind]
    refine (hnext a (r.join first) s).2 ⟨second, hown₂, ?_, ?_⟩
    · exact Registry.join_apart_iff.2 ⟨hroom₂, hapart⟩
    · rw [hjoin, Registry.join_assoc]

theorem map {work : Registry → Result (Registry × α)} (hwork : IsLocal work) (f : α → β) :
    IsLocal fun r => (fun s => (s.1, f s.2)) <$> work r := by
  have hmap : (fun r => (fun s => (s.1, f s.2)) <$> work r)
      = fun r => work r >>= fun s => .ok (s.1, f s.2) := by
    funext r
    cases work r <;> rfl
  rw [hmap]
  exact hwork.bind fun a => pure (f a)

end IsLocal

/-! ### The ways to register -/

theorem TaskHandle.isLocal_outcome (h : TaskHandle) (recipe : Recipe) :
    IsLocal fun r => h.outcome r recipe := by
  refine IsLocal.of_adds (fun own h' => h.isApplied = false
    ∧ own = ⟨[{ h.description with recipe }], .empty⟩ ∧ h' = { h with isApplied := true })
    fun r s => ?_
  constructor
  · intro hs
    obtain ⟨happ, hname, rfl⟩ := outcome_eq_ok hs
    exact ⟨_, ⟨happ, rfl, rfl⟩, Registry.apart_action_iff.2 hname, rfl⟩
  · obtain ⟨r', h'⟩ := s
    rintro ⟨_, ⟨happ, rfl, rfl⟩, hapart, rfl⟩
    have hname := Registry.apart_action_iff.1 hapart
    simp only at hname
    simp [outcome, happ, hname, Registry.join]

theorem CallbackHandle.symbol_of_outcome {h : CallbackHandle} {r : Registry} {f : Function}
    {file : String} {s : Registry × CallbackHandle} (hs : h.outcome r f file = .ok s) :
    h.symbol ≠ "" ∧ h.symbol.length ≤ longestSymbol := by
  rw [outcome] at hs
  cases hname : CallbackName.ofTypeName f.typeName with
  | error e => simp [hname] at hs
  | ok callback =>
    by_cases hsymbol : h.symbol = "" ∨ longestSymbol < h.symbol.length
    · simp [hname, hsymbol] at hs
    · obtain ⟨hne, hle⟩ := not_or.1 hsymbol
      exact ⟨hne, Nat.not_lt.1 hle⟩

theorem CallbackHandle.isLocal_outcome (h : CallbackHandle) (f : Function) (file : String) :
    IsLocal fun r => h.outcome r f file := by
  refine IsLocal.of_adds (fun own h' => h.isApplied = false
    ∧ (h.symbol ≠ "" ∧ h.symbol.length ≤ longestSymbol)
    ∧ h' = { h with isApplied := true }
    ∧ ∃ callback d, CallbackName.ofTypeName f.typeName = .ok callback
      ∧ h.description.checked = .ok d
      ∧ own = ⟨[{ d with recipe := .callback (spec d h.symbol callback file) h.isAvailable }],
        SortedMap.empty.insert callback f.run⟩) fun r s => ?_
  constructor
  · intro hs
    obtain ⟨happ, callback, d, hcallback, hfree, hd, hname, rfl⟩ := outcome_eq_ok hs
    exact ⟨_, ⟨happ, symbol_of_outcome hs, rfl, callback, d, hcallback, hd, rfl⟩,
      Registry.apart_callback_iff.2 ⟨hname, hfree⟩, rfl⟩
  · obtain ⟨r', h'⟩ := s
    rintro ⟨_, ⟨happ, ⟨hsymbol, hlength⟩, rfl, callback, d, hcallback, hd, rfl⟩, hapart, rfl⟩
    obtain ⟨hname, hfree⟩ := Registry.apart_callback_iff.1 hapart
    have hfree := (SortedMap.contains_eq_false_iff _).2 hfree
    simp only at hname
    simp [outcome, happ, hsymbol, Nat.not_lt.2 hlength, hcallback, hfree, hd, hname]
    rfl

theorem Declarative.isLocal_outcome (origin text : String) :
    IsLocal fun r => (fun r' => (r', ())) <$> outcome r origin text := by
  refine IsLocal.of_adds (fun own _ => ∃ description d task,
    ofText text = .ok (description, task) ∧ description.checked = .ok d
      ∧ own = ⟨[{ d with recipe := .builder fun _ => .ok (some (.json task)) }], .empty⟩)
    fun r s => ?_
  constructor
  · intro hs
    cases hr : outcome r origin text with
    | error e => simp [hr] at hs
    | ok r' =>
      rw [hr] at hs
      cases hs
      obtain ⟨description, d, task, htext, hd, hname, rfl⟩ := outcome_eq_ok hr
      exact ⟨_, ⟨description, d, task, htext, hd, rfl⟩, Registry.apart_action_iff.2 hname, rfl⟩
  · obtain ⟨r', u⟩ := s
    rintro ⟨_, ⟨description, d, task, htext, hd, rfl⟩, hapart, rfl⟩
    have hname := Registry.apart_action_iff.1 hapart
    simp only at hname
    simp [outcome, htext, hd, hname, Registry.join]

namespace Step

/-- A step as work on the registry of a bench that has some handles. -/
def work (step : Step) (handles : List (String × Handle)) (r : Registry) :
    Result (Registry × List (String × Handle)) :=
  (fun b => (b.registry, b.handles)) <$> step.run ⟨r, handles⟩

/-- A step is local if it does local work and sets the handles by what that gives. -/
theorem isLocal_work_of_outcome {step : Step} {handles : List (String × Handle)} {α : Type}
    {inner : Registry → Result (Registry × α)} (hinner : IsLocal inner)
    (after : α → List (String × Handle))
    (h : ∀ r, step.outcome ⟨r, handles⟩ = (fun s => ⟨s.1, after s.2⟩) <$> inner r) :
    IsLocal (step.work handles) := by
  have hwork : step.work handles = fun r => (fun s => (s.1, after s.2)) <$> inner r := by
    funext r
    rw [work, run_eq_outcome, h]
    cases inner r <;> rfl
  rw [hwork]
  exact hinner.map after

/-- A step that leaves the registry alone is local. -/
theorem isLocal_work_of_quiet {step : Step} {handles : List (String × Handle)}
    (after : List (String × Handle))
    (h : ∀ r, step.outcome ⟨r, handles⟩ = .ok ⟨r, after⟩) : IsLocal (step.work handles) :=
  isLocal_work_of_outcome (IsLocal.pure ()) (fun _ => after) h

theorem isLocal_work (step : Step) (handles : List (String × Handle)) :
    IsLocal (step.work handles) := by
  cases step with
  | describeTask name d =>
    cases hd : TaskHandle.ofDescription d with
    | error e =>
      refine isLocal_work_of_outcome (IsLocal.fail e) (fun u : Unit => handles) fun r => ?_
      simp [outcome, hd]
    | ok handle =>
      refine isLocal_work_of_quiet (Bench.setHandle name (.task handle) handles) fun r => ?_
      simp [outcome, hd, Bench.withHandle]
  | describeCallback name d symbol isAvailable =>
    exact isLocal_work_of_quiet (Bench.setHandle name _ handles) fun r => rfl
  | configure name setting =>
    cases hname : handles.lookup name with
    | none => exact isLocal_work_of_quiet handles fun r => by simp [outcome, Bench.handle?, hname]
    | some handle =>
      cases handle with
      | task handle =>
        exact isLocal_work_of_quiet handles fun r => by simp [outcome, Bench.handle?, hname]
      | callback handle =>
        refine isLocal_work_of_quiet
          (Bench.setHandle name (.callback (handle.set setting)) handles) fun r => ?_
        simp [outcome, Bench.handle?, hname, Bench.withHandle]
  | applyTask name build =>
    cases hname : handles.lookup name with
    | none => exact isLocal_work_of_quiet handles fun r => by simp [outcome, Bench.handle?, hname]
    | some handle =>
      cases handle with
      | callback handle =>
        exact isLocal_work_of_quiet handles fun r => by simp [outcome, Bench.handle?, hname]
      | task handle =>
        refine isLocal_work_of_outcome (handle.isLocal_outcome (.builder build))
          (fun handle => Bench.setHandle name (.task handle) handles) fun r => ?_
        simp only [outcome, Bench.handle?, hname]
        rfl
  | applyCallback name f file =>
    cases hname : handles.lookup name with
    | none => exact isLocal_work_of_quiet handles fun r => by simp [outcome, Bench.handle?, hname]
    | some handle =>
      cases handle with
      | task handle =>
        exact isLocal_work_of_quiet handles fun r => by simp [outcome, Bench.handle?, hname]
      | callback handle =>
        refine isLocal_work_of_outcome (handle.isLocal_outcome f file)
          (fun handle => Bench.setHandle name (.callback handle) handles) fun r => ?_
        simp only [outcome, Bench.handle?, hname]
        rfl
  | declare origin text =>
    refine isLocal_work_of_outcome (Declarative.isLocal_outcome origin text) (fun _ => handles)
      fun r => ?_
    rw [outcome]
    cases Declarative.outcome r origin text <;> rfl

/-! ### Scripts -/

theorem isLocal_foldlM (script : List Step) (handles : List (String × Handle)) :
    IsLocal fun r => (fun b => (b.registry, b.handles)) <$> script.foldlM run ⟨r, handles⟩ := by
  induction script generalizing handles with
  | nil => exact IsLocal.pure handles
  | cons step rest ih =>
    have hcons : (fun r => (fun b => (b.registry, b.handles))
          <$> (step :: rest).foldlM run ⟨r, handles⟩)
        = fun r => step.work handles r >>= fun s =>
          (fun b => (b.registry, b.handles)) <$> rest.foldlM run ⟨s.1, s.2⟩ := by
      funext r
      rw [List.foldlM_cons, work]
      cases step.run ⟨r, handles⟩ <;> rfl
    rw [hcons]
    exact (step.isLocal_work handles).bind ih

/-- A script does on any registry what it does on the empty one, where there is room for that. -/
theorem runAll_eq_ok_iff {script : List Step} {r r' : Registry} :
    runAll script r = .ok r' ↔
      ∃ own, runAll script .empty = .ok own ∧ r.Apart own ∧ r' = r.join own := by
  have hlocal : IsLocal fun r => (fun r' => (r', ())) <$> runAll script r := by
    have hrun : (fun r => (fun r' => (r', ())) <$> runAll script r)
        = fun r => (fun s : Registry × List (String × Handle) => (s.1, ()))
          <$> (fun b => (b.registry, b.handles)) <$> script.foldlM run ⟨r, []⟩ := by
      funext r
      rw [runAll]
      cases script.foldlM run ⟨r, []⟩ <;> rfl
    rw [hrun]
    exact (isLocal_foldlM script []).map fun _ => ()
  have hunit : ∀ r r', runAll script r = .ok r'
      ↔ (fun r' => (r', ())) <$> runAll script r = .ok (r', ()) := by
    intro r r'
    cases runAll script r <;> simp
  rw [hunit, hlocal]
  simp only [← hunit]

end Step

/-- A script that runs on a reached bench reaches another. -/
theorem Reached.foldlM {script : List Step} {b b' : Bench} {past : List Registration}
    (h : Reached b past) (hb : script.foldlM Step.run b = .ok b') : ∃ past', Reached b' past' := by
  induction script generalizing b past with
  | nil =>
    cases hb
    exact ⟨past, h⟩
  | cons step rest ih =>
    rw [List.foldlM_cons] at hb
    cases hstep : step.run b with
    | error e => simp [hstep] at hb
    | ok mid =>
      rw [hstep, Result.ok_bind] at hb
      rw [Step.run_eq_outcome] at hstep
      exact ih (Step.attempt_of_outcome_ok hstep ▸ h.step step) hb

theorem Step.names_nodup_of_runAll {script : List Step} {own : Registry}
    (h : runAll script .empty = .ok own) : (own.actions.map (·.name)).Nodup := by
  rw [runAll] at h
  cases hb : script.foldlM run ⟨.empty, []⟩ with
  | error e => simp [hb] at h
  | ok b =>
    rw [hb] at h
    cases h
    obtain ⟨past, hpast⟩ := Reached.empty.foldlM hb
    exact hpast.isOf.2.names

end ActionRegistry
