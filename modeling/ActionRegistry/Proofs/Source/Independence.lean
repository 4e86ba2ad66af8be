import ActionRegistry.Action.Manifest
import ActionRegistry.Proofs.Manifest.Order
import ActionRegistry.Proofs.Registration.Local
import ActionRegistry.Standard.Sources

/-!
# Sources do not depend on each other

A source that is a script adds what it loads alone, where there is room for that. So sources load
together if what they load alone has no name in common, and what they load together is that,
joined. Having no name in common does not depend on the order of the sources, and neither do the
callbacks that are joined. The actions come in the order of the sources. A manifest lists them by
their own order and sees the order of the sources only where that leaves a choice.
-/

namespace ActionRegistry

/-! ### Joining many registries -/

namespace Registry

theorem callback?_join_eq_some_iff {r s : Registry} (h : r.Apart s) {key : String}
    {callback : Callback} : (r.join s).callback? key = some callback
      ↔ r.callback? key = some callback ∨ s.callback? key = some callback := by
  rw [callback?_join]
  cases hs : s.callback? key with
  | none => simp
  | some other =>
    have hr : r.callback? key = none := by
      rw [← not_mem_callbackNames_iff]
      exact fun hmem => h.callbacks key hmem (mem_callbackNames_iff.2 ⟨other, hs⟩)
    simp [hr]

theorem actions_foldl_join (registries : List Registry) (r : Registry) :
    (registries.foldl join r).actions = r.actions ++ registries.flatMap (·.actions) := by
  induction registries generalizing r with
  | nil => simp
  | cons s rest ih => rw [List.foldl_cons, ih, actions_join, List.flatMap_cons, List.append_assoc]

theorem callback?_foldl_join_eq_some_iff {registries : List Registry} {r : Registry}
    (hr : ∀ s ∈ registries, r.Apart s) (hapart : registries.Pairwise Apart) {key : String}
    {callback : Callback} : (registries.foldl join r).callback? key = some callback
      ↔ r.callback? key = some callback ∨ ∃ s ∈ registries, s.callback? key = some callback := by
  induction registries generalizing r with
  | nil => simp
  | cons s rest ih =>
    obtain ⟨hhead, htail⟩ := List.pairwise_cons.1 hapart
    obtain ⟨hrs, hrest⟩ := List.forall_mem_cons.1 hr
    rw [List.foldl_cons, ih (fun t ht => join_apart_iff.2 ⟨hrest t ht, hhead t ht⟩) htail,
      callback?_join_eq_some_iff hrs, List.exists_mem_cons_iff, or_assoc]

end Registry

/-! ### Loading -/

namespace Source

/-- A source that is a sequence of registration steps, of which the first that fails is the last. -/
def IsScripted : Source → Prop
  | plugin _ register => ∃ script, register = Step.runAll script
  | declarative _ _ => True

/-- A declaration is a script of one step. -/
theorem IsScripted.exists_script {s : Source} (h : s.IsScripted) :
    ∃ script, ∀ r, s.addTo r = Step.runAll script r := by
  cases s with
  | plugin name register =>
    obtain ⟨script, rfl⟩ := h
    exact ⟨script, fun r => rfl⟩
  | declarative name text =>
    refine ⟨[.declare name text], fun r => ?_⟩
    have hresult := InPlace.result_of_whole (Declarative.run_register r name text)
    rw [addTo, hresult, Step.runAll, List.foldlM_cons, Step.run_eq_outcome, Step.outcome]
    cases Declarative.outcome r name text <;> rfl

/-- To describe a callback and apply its handle is one registration. -/
theorem runAll_callback (name : String) (d : Description) (symbol : String)
    (isAvailable : Parameters → Bool) (f : Function) (file : String) (r : Registry) :
    let handle : CallbackHandle := ⟨d, symbol, isAvailable, false⟩
    Step.runAll [.describeCallback name d symbol isAvailable, .applyCallback name f file] r
      = Prod.fst <$> handle.outcome r f file := by
  intro handle
  simp only [Step.runAll, List.foldlM_cons, List.foldlM_nil, Step.run_eq_outcome, Step.outcome,
    Result.ok_bind, Bench.handle?_withHandle, if_pos, Bench.registry_withHandle]
  cases handle.outcome r f file <;> rfl

theorem isScripted_of_mem_standard {s : Source} (hs : s ∈ Standard.sources) : s.IsScripted := by
  simp only [Standard.sources, List.mem_cons, List.not_mem_nil, or_false] at hs
  rcases hs with rfl | rfl
  · let handle : CallbackHandle := ⟨Hello.description, "hw", Hello.isAvailable, false⟩
    refine ⟨_, funext fun r => Eq.trans ?_ (runAll_callback "hello" handle.description
      handle.symbol handle.isAvailable Hello.function Hello.sourceFile r).symm⟩
    have hresult := InPlace.result_of_whole
      (CallbackHandle.run_register r handle Hello.function Hello.sourceFile)
    rw [Hello.register, hresult]
    cases handle.outcome r Hello.function Hello.sourceFile <;> rfl
  · trivial

variable {s : Source} {own r r' : Registry}

theorem addTo_eq_ok_iff (h : s.IsScripted) (hown : s.addTo .empty = .ok own) :
    s.addTo r = .ok r' ↔ r.Apart own ∧ r' = r.join own := by
  obtain ⟨script, hscript⟩ := h.exists_script
  rw [hscript] at hown
  rw [hscript, Step.runAll_eq_ok_iff, hown]
  simp

theorem names_nodup_of_addTo (h : s.IsScripted) (hown : s.addTo .empty = .ok own) :
    (own.actions.map (·.name)).Nodup := by
  obtain ⟨script, hscript⟩ := h.exists_script
  rw [hscript] at hown
  exact Step.names_nodup_of_runAll hown

theorem addAll_cons_eq_ok_iff {rest : List Source} :
    (addAll (s :: rest) r).1 = .ok r'
      ↔ ∃ mid, s.addTo r = .ok mid ∧ (addAll rest mid).1 = .ok r' := by
  rw [addAll]
  cases s.addTo r <;> simp

theorem load_singleton_eq_ok_iff : (load [s]).1 = .ok own ↔ s.addTo .empty = .ok own := by
  rw [load, addAll_cons_eq_ok_iff]
  simp [addAll]

/-- Sources add to a registry if they have room there and leave room for each other. -/
theorem addAll_eq_ok_iff {sources : List Source} {own : Source → Registry}
    (hscripted : ∀ s ∈ sources, s.IsScripted)
    (hown : ∀ s ∈ sources, s.addTo .empty = .ok (own s)) :
    (addAll sources r).1 = .ok r' ↔ (∀ t ∈ sources.map own, r.Apart t)
      ∧ (sources.map own).Pairwise Registry.Apart
      ∧ r' = (sources.map own).foldl Registry.join r := by
  induction sources generalizing r with
  | nil => simp [addAll, eq_comm]
  | cons s rest ih =>
    obtain ⟨hs, hrest⟩ := List.forall_mem_cons.1 hscripted
    obtain ⟨hsown, hrestown⟩ := List.forall_mem_cons.1 hown
    simp only [addAll_cons_eq_ok_iff, addTo_eq_ok_iff hs hsown, ih hrest hrestown]
    simp only [List.map_cons, List.forall_mem_cons, List.pairwise_cons, List.foldl_cons]
    constructor
    · rintro ⟨_, ⟨hroom, rfl⟩, hjoined, hapart, rfl⟩
      have hsplit := fun t ht => Registry.join_apart_iff.1 (hjoined t ht)
      exact ⟨⟨hroom, fun t ht => (hsplit t ht).1⟩, ⟨fun t ht => (hsplit t ht).2, hapart⟩, rfl⟩
    · rintro ⟨⟨hroom, hrooms⟩, ⟨hhead, hapart⟩, rfl⟩
      exact ⟨_, ⟨hroom, rfl⟩,
        fun t ht => Registry.join_apart_iff.2 ⟨hrooms t ht, hhead t ht⟩, hapart, rfl⟩

/-- Sources load if what they load alone is apart, and they load that, joined. -/
theorem load_eq_ok_iff {sources : List Source} {own : Source → Registry}
    (hscripted : ∀ s ∈ sources, s.IsScripted)
    (hown : ∀ s ∈ sources, (load [s]).1 = .ok (own s)) :
    (load sources).1 = .ok r ↔ (sources.map own).Pairwise Registry.Apart
      ∧ r = (sources.map own).foldl Registry.join .empty := by
  have hown : ∀ s ∈ sources, s.addTo .empty = .ok (own s) := fun s hs =>
    load_singleton_eq_ok_iff.1 (hown s hs)
  have hroom : ∀ t ∈ sources.map own, Registry.empty.Apart t := fun t _ => Registry.empty_apart t
  rw [load, addAll_eq_ok_iff hscripted hown, and_iff_right hroom]

section Load

variable {sources : List Source} {own : Source → Registry}
  (hscripted : ∀ s ∈ sources, s.IsScripted) (hown : ∀ s ∈ sources, (load [s]).1 = .ok (own s))
include hscripted hown

theorem exists_load_iff :
    (∃ r, (load sources).1 = .ok r) ↔ sources.Pairwise fun s t => (own s).Apart (own t) := by
  simp only [load_eq_ok_iff hscripted hown, exists_and_left, exists_eq, and_true, List.pairwise_map]

theorem actions_of_load (hr : (load sources).1 = .ok r) :
    r.actions = sources.flatMap fun s => (own s).actions := by
  obtain ⟨_, rfl⟩ := (load_eq_ok_iff hscripted hown).1 hr
  rw [Registry.actions_foldl_join, List.flatMap_map]
  rfl

theorem callback?_of_load (hr : (load sources).1 = .ok r) (key : String) (callback : Callback) :
    r.callback? key = some callback ↔ ∃ s ∈ sources, (own s).callback? key = some callback := by
  obtain ⟨hapart, rfl⟩ := (load_eq_ok_iff hscripted hown).1 hr
  have hroom : ∀ t ∈ sources.map own, Registry.empty.Apart t := fun t _ => Registry.empty_apart t
  rw [Registry.callback?_foldl_join_eq_some_iff hroom hapart]
  have hempty : Registry.empty.callback? key = none := rfl
  simp [hempty]

theorem names_nodup_of_load (hr : (load sources).1 = .ok r) :
    (r.actions.map (·.name)).Nodup := by
  obtain ⟨hapart, _⟩ := (load_eq_ok_iff hscripted hown).1 hr
  rw [actions_of_load hscripted hown hr, List.Nodup, List.pairwise_map, List.pairwise_flatMap]
  constructor
  · intro s hs
    have hnames := names_nodup_of_addTo (hscripted s hs) (load_singleton_eq_ok_iff.1 (hown s hs))
    exact List.pairwise_map.1 hnames
  · exact (List.pairwise_map.1 hapart).imp fun h => h.actions

end Load

end Source

/-! ### Ties -/

/-- Actions of equal order that stand in one list, one before the other, stand so in the other list.
-/
def KeepsTies (actions actions' : List Action) : Prop :=
  ∀ a b, a.order = b.order → [a, b].Sublist actions → [a, b].Sublist actions'

theorem eq_of_pair_sublist {α : Type} {a b : α} {l : List α} (hl : l.Nodup)
    (hab : [a, b].Sublist l) (hba : [b, a].Sublist l) : a = b := by
  induction l with
  | nil => cases hab
  | cons c rest ih =>
    obtain ⟨hc, hrest⟩ := List.nodup_cons.1 hl
    cases hab with
    | cons _ hab =>
      cases hba with
      | cons _ hba => exact ih hrest hab hba
      | cons_cons _ hba => exact absurd (hab.subset (by simp)) hc
    | cons_cons _ hab =>
      cases hba with
      | cons _ hba => exact absurd (hba.subset (by simp)) hc
      | cons_cons _ hba => rfl

/-- Where ties are kept, the actions of each order are the same lists. -/
theorem ofOrder_eq_of_keepsTies {actions actions' : List Action} (hperm : actions'.Perm actions)
    (hnodup : actions'.Nodup) (h : KeepsTies actions actions') (order : Int64) :
    ofOrder order actions' = ofOrder order actions := by
  have hsame : (ofOrder order actions').Perm (ofOrder order actions) := hperm.filter _
  have hself : (ofOrder order actions').Pairwise
      fun a b => [a, b].Sublist (ofOrder order actions') :=
    List.pairwise_iff_forall_sublist.2 fun hab => hab
  refine hsame.eq_of_pairwise ?_ hself ?_
  · intro a b _ _ hab hba
    exact eq_of_pair_sublist (hnodup.sublist List.filter_sublist) hab hba
  · refine List.pairwise_iff_forall_sublist.2 fun {a b} hab => ?_
    have ha : a.order = order := (mem_ofOrder.1 (hab.subset (by simp))).2
    have hb : b.order = order := (mem_ofOrder.1 (hab.subset (by simp))).2
    have hkept := h a b (ha.trans hb.symm) (hab.trans List.filter_sublist)
    have hpair : ofOrder order [a, b] = [a, b] := by
      rw [ofOrder_cons, if_pos ha, ofOrder_cons, if_pos hb]
      rfl
    exact hpair ▸ hkept.filter _

theorem Registry.sortedActions_eq_of_keepsTies {r r' : Registry}
    (hperm : r'.actions.Perm r.actions) (hnodup : r'.actions.Nodup)
    (h : KeepsTies r.actions r'.actions) : r'.sortedActions = r.sortedActions := by
  have hsort := r'.isStableSort_sortedActions
  have hstable : ∀ order, ofOrder order r'.sortedActions = ofOrder order r.actions := fun order =>
    (hsort.stable order).trans (ofOrder_eq_of_keepsTies hperm hnodup h order)
  exact IsStableSort.unique ⟨hsort.perm.trans hperm, hsort.ascending, hstable⟩
    r.isStableSort_sortedActions

/-- **Sources do not depend on each other.** Scripts and declarations load together, in any order,
just if no two of them register the same name. -/
theorem sources_load_independently {sources : List Source} {own : Source → Registry}
    (hscripted : ∀ s ∈ sources, s.IsScripted)
    (hown : ∀ s ∈ sources, (Source.load [s]).1 = .ok (own s)) :
    ((∃ r, (Source.load sources).1 = .ok r)
      ↔ sources.Pairwise fun s t => (own s).Apart (own t))
    ∧ (∀ r, (Source.load sources).1 = .ok r →
        (r.actions = sources.flatMap fun s => (own s).actions)
        ∧ ∀ key callback, r.callback? key = some callback
          ↔ ∃ s ∈ sources, (own s).callback? key = some callback)
    ∧ ∀ sources', sources'.Perm sources →
        ((∃ r', (Source.load sources').1 = .ok r') ↔ ∃ r, (Source.load sources).1 = .ok r)
        ∧ ∀ r r', (Source.load sources).1 = .ok r → (Source.load sources').1 = .ok r' →
            r'.callbacks = r.callbacks
            ∧ (KeepsTies r.actions r'.actions →
                ∀ ctx, Manifest.ofRegistry r' ctx = Manifest.ofRegistry r ctx) := by
  have hload := Source.exists_load_iff hscripted hown
  refine ⟨hload, fun r hr => ?_, fun sources' hperm => ?_⟩
  · exact ⟨Source.actions_of_load hscripted hown hr,
      Source.callback?_of_load hscripted hown hr⟩
  have hscripted' : ∀ s ∈ sources', s.IsScripted := fun s hs => hscripted s (hperm.subset hs)
  have hown' : ∀ s ∈ sources', (Source.load [s]).1 = .ok (own s) := fun s hs =>
    hown s (hperm.subset hs)
  refine ⟨?_, fun r r' hr hr' => ⟨?_, fun hties ctx => ?_⟩⟩
  · rw [Source.exists_load_iff hscripted' hown', hload]
    exact hperm.pairwise_iff Registry.Apart.symm
  · refine SortedMap.eq_of_get?_eq fun key => Option.ext fun callback => ?_
    have hcallback := Source.callback?_of_load hscripted hown hr key callback
    have hcallback' := Source.callback?_of_load hscripted' hown' hr' key callback
    rw [Registry.callback?] at hcallback hcallback'
    simp only [hcallback, hcallback', hperm.mem_iff]
  · have hactions : r'.actions.Perm r.actions := by
      rw [Source.actions_of_load hscripted hown hr, Source.actions_of_load hscripted' hown' hr']
      exact hperm.flatMap_right _
    have hnodup : r'.actions.Nodup := (Source.names_nodup_of_load hscripted' hown' hr').of_map _
    rw [Manifest.ofRegistry, Manifest.ofRegistry,
      Registry.sortedActions_eq_of_keepsTies hactions hnodup hties]

/-- A plugin with a callback and a declaration, in both orders. -/
theorem retry_and_clean_load_independently :
    let retry := Source.plugin "retry" (Step.runAll [
      .describeCallback "hook" ⟨"retry", "Retry", "Runs it again.", 1, [], none⟩ "rt" fun _ => true,
      .applyCallback "hook"
        ⟨"hooks::retry", fun _ modes => ⟨.ok (), modes, [], []⟩⟩ "src/hooks.rs"])
    let clean := Source.declarative "clean.yml"
      "name: clean\ntitle: t\ndescription: d\norder: 2\n---\na: b\n"
    ∃ r r', (Source.load [retry, clean]).1 = .ok r ∧ (Source.load [clean, retry]).1 = .ok r'
      ∧ r.actions.map (·.name) = ["retry", "clean"] ∧ r'.actions.map (·.name) = ["clean", "retry"]
      ∧ r'.callbacks = r.callbacks
      ∧ ∀ ctx, Manifest.ofRegistry r' ctx = Manifest.ofRegistry r ctx := by
  intro retry clean
  have halone : ∀ s ∈ [retry, clean], (Source.load [s]).1.toOption.isSome = true := by
    decide +kernel
  have hboth : ((Source.load [retry, clean]).1.toOption.map fun r =>
      r.actions.map fun a => (a.name, a.order)) = some [("retry", 1), ("clean", 2)] := by
    decide +kernel
  have hswapped : ((Source.load [clean, retry]).1.toOption.map fun r =>
      r.actions.map (·.name)) = some ["clean", "retry"] := by decide +kernel
  have hscripted : ∀ s ∈ [retry, clean], s.IsScripted := by
    intro s hs
    simp only [List.mem_cons, List.not_mem_nil, or_false] at hs
    rcases hs with rfl | rfl
    · exact ⟨_, rfl⟩
    · trivial
  have hown : ∀ s ∈ [retry, clean],
      (Source.load [s]).1 = .ok ((Source.load [s]).1.toOption.getD .empty) := by
    intro s hs
    have hs := halone s hs
    cases hload : (Source.load [s]).1 with
    | error e =>
      rw [hload] at hs
      cases hs
    | ok own => rfl
  obtain ⟨_, _, hany⟩ := sources_load_independently hscripted hown
  obtain ⟨_, hsame⟩ := hany [clean, retry] (List.Perm.swap retry clean [])
  obtain ⟨r, hr, hactions⟩ := Result.toOption_map_eq_some_iff.1 hboth
  obtain ⟨r', hr', hnames⟩ := Result.toOption_map_eq_some_iff.1 hswapped
  obtain ⟨hcallbacks, hmanifest⟩ := hsame r r' hr hr'
  obtain ⟨actions, callbacks⟩ := r
  obtain ⟨a, b, rfl⟩ : ∃ a b, actions = [a, b] :=
    List.length_eq_two.1 (by simpa using congrArg List.length hactions)
  simp only [List.map_cons, List.map_nil, List.cons.injEq, Prod.mk.injEq] at hactions
  obtain ⟨⟨haname, haorder⟩, ⟨hbname, hborder⟩, _⟩ := hactions
  refine ⟨_, r', hr, hr', by simp [haname, hbname], hnames, hcallbacks,
    hmanifest fun x y horder hxy => ?_⟩
  -- The two orders differ, so there are no ties.
  cases hxy.eq_of_length rfl
  rw [haorder, hborder] at horder
  exact absurd horder (by decide)

end ActionRegistry
