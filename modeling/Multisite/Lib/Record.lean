import Mathlib.Logic.Function.Basic
import Mathlib.Data.List.Basic

/-!
A record of fields `f : F`, each with a value of its own type `V f`, and changes to it: a change
names some of the fields and gives each a value.

* `overlay`: the record with a change made, and `overlays` with a list of them, the newest last;
* `Contains`: of every change in a list, the record has the values that no later one gives anew;
  `contains_overlays`: what the changes make of a record does;
* `overlay_eq`: a whole record written over another is a change to it where the two agree on the
  fields that the change does not name.
-/

namespace Multisite.Lib

variable {F : Type*} {V : F → Type*}

variable (V) in
/-- Some of the fields, each with a value. -/
abbrev Change := (f : F) → Option (V f)

/-- The record with the change made. -/
def overlay (c : (f : F) → V f) (d : Change V) : (f : F) → V f := fun f => (d f).getD (c f)

/-- The record with the changes made, one after another. -/
def overlays (c : (f : F) → V f) (log : List (Change V)) : (f : F) → V f := log.foldl overlay c

/-- The record has what each change gives to a field that no later one names. -/
def Contains (c : (f : F) → V f) (log : List (Change V)) : Prop :=
  ∀ l₁ d l₂, log = l₁ ++ d :: l₂ → ∀ f v, d f = some v → (∀ e ∈ l₂, e f = none) → c f = v

variable {c u : (f : F) → V f} {d : Change V} {log : List (Change V)} {f : F}

lemma overlay_of_some {v : V f} (h : d f = some v) : overlay c d f = v := by
  rw [overlay, h]
  rfl

lemma overlay_of_none (h : d f = none) : overlay c d f = c f := by
  rw [overlay, h]
  rfl

lemma overlays_append (c : (f : F) → V f) (l₁ l₂ : List (Change V)) :
    overlays c (l₁ ++ l₂) = overlays (overlays c l₁) l₂ := List.foldl_append

lemma overlays_concat (c : (f : F) → V f) (log : List (Change V)) (d : Change V) :
    overlays c (log ++ [d]) = overlay (overlays c log) d := overlays_append c log [d]

/-- What no change names stays. -/
lemma overlays_of_none (h : ∀ e ∈ log, e f = none) : overlays c log f = c f := by
  induction log generalizing c with
  | nil => rfl
  | cons e log ih =>
      show overlays (overlay c e) log f = c f
      rw [ih fun e' he' => h e' (List.mem_cons_of_mem _ he'),
        overlay_of_none (h e List.mem_cons_self)]

/-- **What the changes make of a record contains them.** -/
lemma contains_overlays (c : (f : F) → V f) (log : List (Change V)) :
    Contains (overlays c log) log := by
  rintro l₁ d l₂ rfl f v hv hlater
  rw [overlays_append]
  show overlays (overlay (overlays c l₁) d) l₂ f = v
  rw [overlays_of_none hlater, overlay_of_some hv]

/-- A field that only the first of two changes names, and that is not as it says, is lost. -/
lemma not_contains {v : V f} (h : log.map (fun d => d f) = [some v, none]) (hne : c f ≠ v) :
    ¬ Contains c log := by
  intro hc
  obtain ⟨d, l, rfl, hd, hl⟩ := List.map_eq_cons_iff.mp h
  obtain ⟨e, l', rfl, he, hl'⟩ := List.map_eq_cons_iff.mp hl
  rw [List.map_eq_nil_iff.mp hl'] at hc
  refine hne (hc [] d [e] rfl f v hd fun e' he' => ?_)
  rw [List.mem_singleton.mp he']
  exact he

/-- A copy with a change made, written over a record that agrees with the copy where the change
says nothing, is that record with the change made. -/
lemma overlay_eq (h : ∀ f, d f = none → u f = c f) : overlay u d = overlay c d := by
  funext f
  cases hf : d f with
  | none => rw [overlay_of_none hf, overlay_of_none hf, h f hf]
  | some v => rw [overlay_of_some hf, overlay_of_some hf]

end Multisite.Lib
