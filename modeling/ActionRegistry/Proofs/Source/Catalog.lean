import ActionRegistry.Source.Catalog
import Mathlib.Data.List.Induction

/-!
# A catalog answers as if it always loaded

What a catalog keeps is what its sources load. So a reading gives what they load, whether it runs
them or not, and from then on the catalog keeps that, if it is a registry. Of a loading that fails
nothing is kept. Whether something is kept is therefore told by the past of the catalog: there was
a reading that succeeded, and no reset after it.
-/

namespace ActionRegistry

/-! ### Since -/

section Since

variable {α : Type} {ends starts : α → Prop} {past : List α} {x : α}

/-- Something starts in a past, and nothing after it ends it. -/
def Since (ends starts : α → Prop) (past : List α) : Prop :=
  ∃ before x after, past = before ++ x :: after ∧ starts x ∧ ∀ y ∈ after, ¬ ends y

theorem not_since_nil : ¬ Since ends starts [] := by
  rintro ⟨before, x, after, hpast, _⟩
  simp at hpast

theorem since_concat_iff :
    Since ends starts (past ++ [x]) ↔ starts x ∨ (Since ends starts past ∧ ¬ ends x) := by
  constructor
  -- Either nothing comes after what started it, which then is last, or what comes last is after it.
  · rintro ⟨before, y, after, hpast, hy, hafter⟩
    rcases List.eq_nil_or_concat after with rfl | ⟨after, z, rfl⟩
    · obtain ⟨_, hx⟩ := List.append_inj' hpast rfl
      cases hx
      exact .inl hy
    · rw [List.concat_eq_append, ← List.cons_append, ← List.append_assoc] at hpast
      obtain ⟨hinit, hx⟩ := List.append_inj' hpast rfl
      cases hx
      simp only [List.concat_eq_append, List.mem_append, List.mem_singleton] at hafter
      exact .inr ⟨⟨before, y, after, hinit, hy, fun w hw => hafter w (.inl hw)⟩,
        hafter x (.inr rfl)⟩
  · rintro (hx | ⟨⟨before, y, after, rfl, hy, hafter⟩, hx⟩)
    · exact ⟨past, x, [], rfl, hx, by simp⟩
    · refine ⟨before, y, after ++ [x], by simp, hy, fun w hw => ?_⟩
      rcases List.mem_append.1 hw with hw | hw
      · exact hafter w hw
      · exact List.mem_singleton.1 hw ▸ hx

end Since

/-! ### Reading -/

theorem Source.log_addAll_ne_nil (sources : List Source) (r : Registry) :
    (addAll sources r).2 ≠ [] := by
  induction sources generalizing r with
  | nil => simp [addAll]
  | cons s rest ih =>
    rw [addAll]
    cases s.addTo r with
    | ok r' => exact ih r'
    | error e => simp

namespace Catalog

variable {c : Catalog} {sources : List Source}

theorem read_of_loaded {r : Registry} (h : c.loaded = some r) : c.read = ⟨.ok r, [], c⟩ := by
  simp only [read, h]

theorem read_of_not_loaded (h : c.loaded = none) :
    c.read = ⟨(Source.load c.sources).1, (Source.load c.sources).2,
      ⟨c.sources, (Source.load c.sources).1.toOption⟩⟩ := by
  obtain ⟨sources, _⟩ := c
  cases h
  simp only [read]
  rcases Source.load sources with ⟨_ | _, _⟩ <;> rfl

/-- A catalog has sources, and what it keeps is what they load. -/
structure Holds (c : Catalog) (sources : List Source) : Prop where
  of_sources : c.sources = sources
  of_load : ∀ r, c.loaded = some r → (Source.load sources).1 = .ok r

theorem holds_ofSources (sources : List Source) : (ofSources sources).Holds sources where
  of_sources := rfl
  of_load := nofun

namespace Holds

theorem reset_eq (h : c.Holds sources) : c.reset = ofSources sources := by
  rw [reset, h.of_sources, ofSources]

theorem result_read (h : c.Holds sources) : c.read.result = (Source.load sources).1 := by
  cases hloaded : c.loaded with
  | none => rw [read_of_not_loaded hloaded, h.of_sources]
  | some r => rw [read_of_loaded hloaded, h.of_load r hloaded]

/-- After a reading a catalog keeps what its sources load, if they load. -/
theorem catalog_read (h : c.Holds sources) :
    c.read.catalog = ⟨sources, (Source.load sources).1.toOption⟩ := by
  cases hloaded : c.loaded with
  | none => rw [read_of_not_loaded hloaded, h.of_sources]
  | some r =>
    rw [read_of_loaded hloaded, h.of_load r hloaded, ← h.of_sources]
    exact congrArg (Catalog.mk c.sources) hloaded

theorem read (h : c.Holds sources) : c.read.catalog.Holds sources := by
  rw [h.catalog_read]
  refine ⟨rfl, fun r hr => ?_⟩
  cases hload : (Source.load sources).1 with
  | ok own =>
    simp only [hload] at hr
    cases hr
    rfl
  | error e =>
    simp only [hload] at hr
    cases hr

theorem eq_ofSources_of_error (h : c.Holds sources) {e : Error}
    (he : (Source.load sources).1 = .error e) : c = ofSources sources := by
  have hnone : c.loaded = none := by
    cases hloaded : c.loaded with
    | none => rfl
    | some r => cases he.symm.trans (h.of_load r hloaded)
  obtain ⟨_, _⟩ := c
  cases h.of_sources
  cases hnone
  rfl

end Holds

/-! ### Requests -/

inductive View where
  | registry
  | actions
  | callbacks

inductive Seen where
  | registry (r : Registry)
  | actions (actions : List Action)
  | callbacks (callbacks : SortedMap Callback)

def View.of : View → Registry → Seen
  | registry, r => .registry r
  | actions, r => .actions r.actions
  | callbacks, r => .callbacks r.callbacks

inductive Request where
  | read (view : View)
  | isLoaded
  | reset

inductive Reply where
  | seen (result : Result Seen)
  | loaded (isLoaded : Bool)
  | done

structure Response where
  reply : Reply
  log : List Log.Event
  catalog : Catalog

def ask (c : Catalog) : Request → Response
  | .read view => ⟨.seen (c.read.result.map view.of), c.read.log, c.read.catalog⟩
  | .isLoaded => ⟨.loaded c.isLoaded, [], c⟩
  | .reset => ⟨.done, [], c.reset⟩

def after (c : Catalog) (requests : List Request) : Catalog :=
  requests.foldl (fun c q => (c.ask q).catalog) c

structure Exchange where
  request : Request
  reply : Reply

def exchanges (c : Catalog) : List Request → List Exchange
  | [] => []
  | q :: rest => ⟨q, (c.ask q).reply⟩ :: (c.ask q).catalog.exchanges rest

def Exchange.Succeeds (x : Exchange) : Prop :=
  ∃ view seen, x.request = .read view ∧ x.reply = .seen (.ok seen)

/-- A reading succeeded, and there was no reset after it. -/
def HasRead (past : List Exchange) : Prop :=
  Since (fun x : Exchange => x.request = .reset) Exchange.Succeeds past

theorem after_concat (c : Catalog) (requests : List Request) (q : Request) :
    c.after (requests ++ [q]) = ((c.after requests).ask q).catalog :=
  List.foldl_append

theorem exchanges_concat (c : Catalog) (requests : List Request) (q : Request) :
    c.exchanges (requests ++ [q])
      = c.exchanges requests ++ [⟨q, ((c.after requests).ask q).reply⟩] := by
  induction requests generalizing c with
  | nil => rfl
  | cons first rest ih =>
    rw [List.cons_append, exchanges, ih, exchanges, List.cons_append]
    rfl

theorem Holds.reply_read (h : c.Holds sources) (view : View) :
    (c.ask (.read view)).reply = .seen ((Source.load sources).1.map view.of) := by
  rw [Catalog.ask, h.result_read]

/-- A request keeps that a catalog holds what its sources load. -/
theorem Holds.ask (h : c.Holds sources) (q : Request) : (c.ask q).catalog.Holds sources := by
  cases q with
  | read view => exact h.read
  | isLoaded => exact h
  | reset =>
    have hreset : (c.ask .reset).catalog = ofSources sources := h.reset_eq
    exact hreset ▸ holds_ofSources sources

theorem holds_after (sources : List Source) (requests : List Request) :
    ((ofSources sources).after requests).Holds sources := by
  -- Requests are answered one after the other, so a past grows at its end.
  induction requests using List.reverseRecOn with
  | nil => exact holds_ofSources sources
  | append_singleton requests q ih => exact after_concat _ requests q ▸ ih.ask q

/-- Something is kept after a request if it was a reading that succeeded, or if it was no reset and
something was kept before. -/
theorem Holds.isLoaded_ask_iff (h : c.Holds sources) (q : Request) :
    (c.ask q).catalog.isLoaded = true
      ↔ Exchange.Succeeds ⟨q, (c.ask q).reply⟩ ∨ (c.isLoaded = true ∧ q ≠ .reset) := by
  cases q with
  | isLoaded => simp [Catalog.ask, Exchange.Succeeds]
  | reset => simp [Catalog.ask, Exchange.Succeeds, isLoaded, reset]
  | read view =>
    have hcatalog : (c.ask (.read view)).catalog = _ := h.catalog_read
    rw [hcatalog, h.reply_read]
    cases hload : (Source.load sources).1 with
    | ok r =>
      have hsucceeds : Exchange.Succeeds ⟨.read view, .seen (.ok (view.of r))⟩ :=
        ⟨view, view.of r, rfl, rfl⟩
      exact iff_of_true rfl (.inl hsucceeds)
    | error e =>
      rw [h.eq_ofSources_of_error hload]
      refine iff_of_false nofun ?_
      rintro (⟨_, _, _, hok⟩ | ⟨hloaded, _⟩)
      · cases hok
      · cases hloaded

theorem isLoaded_after_iff (sources : List Source) (requests : List Request) :
    ((ofSources sources).after requests).isLoaded = true
      ↔ HasRead ((ofSources sources).exchanges requests) := by
  induction requests using List.reverseRecOn with
  | nil => exact iff_of_false nofun not_since_nil
  | append_singleton requests q ih =>
    rw [after_concat, exchanges_concat, (holds_after sources requests).isLoaded_ask_iff, ih,
      HasRead, HasRead, since_concat_iff]

theorem ask_read_of_loaded {r : Registry} (h : c.loaded = some r) (view : View) :
    c.ask (.read view) = ⟨.seen (.ok (view.of r)), [], c⟩ := by
  rw [ask, read_of_loaded h]
  rfl

/-- Only a reading of a catalog that keeps nothing asks its sources. -/
theorem ask_read_of_not_loaded (h : c.loaded = none) (view : View) :
    (c.ask (.read view)).reply = .seen ((Source.load c.sources).1.map view.of)
      ∧ (c.ask (.read view)).log = (Source.load c.sources).2 := by
  rw [ask, read_of_not_loaded h]
  exact ⟨rfl, rfl⟩

end Catalog

/-- **A catalog answers as if it always loaded.** Its sources are run just if no reading has
succeeded since it was new or reset. -/
theorem catalog_answers_as_loading (sources : List Source) (requests : List Catalog.Request) :
    let start := Catalog.ofSources sources
    let c := start.after requests
    let hasRead := Catalog.HasRead (start.exchanges requests)
    (∀ view, (c.ask (.read view)).reply = .seen ((Source.load sources).1.map view.of))
    ∧ (∀ view, (hasRead → (c.ask (.read view)).log = [])
        ∧ (¬ hasRead → (c.ask (.read view)).log = (Source.load sources).2
            ∧ (c.ask (.read view)).log ≠ []))
    ∧ (∀ view other,
        let response := ({ c with sources := other } : Catalog).ask (.read view)
        (hasRead → response.reply = (c.ask (.read view)).reply)
        ∧ (¬ hasRead → response.reply = .seen ((Source.load other).1.map view.of)))
    ∧ (∃ isLoaded, (c.ask .isLoaded).reply = .loaded isLoaded ∧ (isLoaded = true ↔ hasRead))
    ∧ ∀ view e, (c.ask (.read view)).reply = .seen (.error e) →
        (c.ask (.read view)).catalog = c ∧ c = start := by
  intro start c hasRead
  have hholds : c.Holds sources := Catalog.holds_after sources requests
  have hkept : c.isLoaded = true ↔ hasRead := Catalog.isLoaded_after_iff sources requests
  have hsome : hasRead → ∃ r, c.loaded = some r := fun h => Option.isSome_iff_exists.1 (hkept.2 h)
  have hnone : ¬ hasRead → c.loaded = none := fun h =>
    Option.not_isSome_iff_eq_none.1 (mt hkept.1 h)
  refine ⟨hholds.reply_read, fun view => ⟨fun h => ?_, fun h => ?_⟩,
    fun view other => ⟨fun h => ?_, fun h => ?_⟩, ⟨c.isLoaded, rfl, hkept⟩, fun view e he => ?_⟩
  · obtain ⟨r, hr⟩ := hsome h
    rw [Catalog.ask_read_of_loaded hr]
  · have hlog := (Catalog.ask_read_of_not_loaded (hnone h) view).2
    rw [hlog, hholds.of_sources]
    exact ⟨rfl, Source.log_addAll_ne_nil sources .empty⟩
  · obtain ⟨r, hr⟩ := hsome h
    have hother : ({ c with sources := other } : Catalog).loaded = some r := hr
    rw [Catalog.ask_read_of_loaded hother, Catalog.ask_read_of_loaded hr]
  · have hother : ({ c with sources := other } : Catalog).loaded = none := hnone h
    exact (Catalog.ask_read_of_not_loaded hother view).1
  · cases hload : (Source.load sources).1 with
    | ok r =>
      rw [hholds.reply_read, hload] at he
      cases he
    | error e' =>
      have hstart : c = start := hholds.eq_ofSources_of_error hload
      have hcatalog : (c.ask (.read view)).catalog = ⟨sources, (Source.load sources).1.toOption⟩ :=
        hholds.catalog_read
      rw [hload] at hcatalog
      exact ⟨hcatalog.trans hstart.symm, hstart⟩

end ActionRegistry
