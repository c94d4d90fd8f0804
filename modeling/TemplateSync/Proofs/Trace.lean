import Mathlib.Data.List.Induction
import Mathlib.Logic.Relation

set_option autoImplicit false

namespace TemplateSync

variable {S L : Type} {step : S → L → S → Prop}

inductive Trace (step : S → L → S → Prop) (s : S) : List L → S → Prop where
  | start : Trace step s [] s
  | next {labels : List L} {label : L} {t u : S} (trace : Trace step s labels t)
      (last : step t label u) : Trace step s (labels ++ [label]) u

theorem trace_nil {s t : S} : Trace step s [] t ↔ t = s := by
  constructor
  next =>
    intro trace
    generalize none : ([] : List L) = labels at trace
    cases trace with
    | start => rfl
    | next trace last => simp at none
  next =>
    rintro rfl
    exact .start

theorem trace_snoc {s u : S} {labels : List L} {label : L} :
    Trace step s (labels ++ [label]) u ↔ ∃ t, Trace step s labels t ∧ step t label u := by
  constructor
  next =>
    intro trace
    generalize whole : labels ++ [label] = all at trace
    cases trace with
    | start => simp at whole
    | next trace last =>
      obtain ⟨rfl, same⟩ := List.append_inj' whole rfl
      cases same
      exact ⟨_, trace, last⟩
  next =>
    rintro ⟨t, trace, last⟩
    exact .next trace last

theorem trace_append {s u : S} {first second : List L} :
    Trace step s (first ++ second) u ↔ ∃ t, Trace step s first t ∧ Trace step t second u := by
  induction second using List.reverseRecOn generalizing u with
  | nil => simp [trace_nil]
  | append_singleton second last ih =>
    rw [← List.append_assoc, trace_snoc]
    constructor
    next =>
      rintro ⟨t, trace, step⟩
      obtain ⟨middle, one, two⟩ := ih.mp trace
      exact ⟨middle, one, trace_snoc.mpr ⟨t, two, step⟩⟩
    next =>
      rintro ⟨middle, one, trace⟩
      obtain ⟨t, two, step⟩ := trace_snoc.mp trace
      exact ⟨t, ih.mpr ⟨middle, one, two⟩, step⟩

theorem trace_single {s t : S} {label : L} (one : step s label t) : Trace step s [label] t :=
  .next .start one

theorem trace_cons {s u : S} {label : L} {labels : List L} :
    Trace step s (label :: labels) u ↔ ∃ t, step s label t ∧ Trace step t labels u := by
  rw [← List.singleton_append, trace_append]
  constructor
  next =>
    rintro ⟨t, one, rest⟩
    obtain ⟨_, none, first⟩ := trace_snoc.mp (show Trace step s ([] ++ [label]) t from one)
    rw [trace_nil] at none
    subst none
    exact ⟨t, first, rest⟩
  next =>
    rintro ⟨t, first, rest⟩
    exact ⟨t, trace_single first, rest⟩

theorem traced_cons {s t : S} {label : L} {labels : List L} (first : step s label t)
    (rest : ∃ u, Trace step t labels u) : ∃ u, Trace step s (label :: labels) u :=
  rest.imp fun _ rest => trace_cons.mpr ⟨t, first, rest⟩

theorem Trace.trans {s t u : S} {first second : List L} (one : Trace step s first t)
    (two : Trace step t second u) : Trace step s (first ++ second) u :=
  trace_append.mpr ⟨t, one, two⟩

theorem Trace.mono {other : S → L → S → Prop}
    (sub : ∀ s label t, step s label t → other s label t) {s t : S} {labels : List L}
    (trace : Trace step s labels t) : Trace other s labels t := by
  induction trace with
  | start => exact .start
  | next _ last ih => exact .next ih (sub _ _ _ last)

theorem Trace.keeps {holds : S → Prop} (kept : ∀ s label t, holds s → step s label t → holds t)
    {s t : S} {labels : List L} (trace : Trace step s labels t) (before : holds s) : holds t := by
  induction trace with
  | start => exact before
  | next _ last ih => exact kept _ _ _ ih last

theorem Trace.keeps_among {holds : S → Prop} {s t : S} {labels : List L}
    (trace : Trace step s labels t)
    (kept : ∀ s label t, label ∈ labels → holds s → step s label t → holds t) (before : holds s) :
    holds t := by
  induction trace with
  | start => exact before
  | next _ last ih =>
    refine kept _ _ _ (by simp) (ih fun s label t inside => kept s label t ?_) last
    simp [inside]

def Leads (step : S → L → S → Prop) (among : L → Prop) (s t : S) : Prop :=
  ∃ labels, Trace step s labels t ∧ ∀ label ∈ labels, among label

variable {among : L → Prop} {s t u : S} {label : L}

theorem Leads.refl (s : S) : Leads step among s s :=
  ⟨[], .start, nofun⟩

theorem Leads.head (first : step s label t) (own : among label) (rest : Leads step among t u) :
    Leads step among s u := by
  obtain ⟨labels, trace, all⟩ := rest
  exact ⟨label :: labels, trace_cons.mpr ⟨t, first, trace⟩, by simpa [own] using all⟩

theorem Leads.trans (one : Leads step among s t) (two : Leads step among t u) :
    Leads step among s u := by
  obtain ⟨first, trace, all⟩ := one
  obtain ⟨second, rest, others⟩ := two
  exact ⟨first ++ second, trace.trans rest, by simpa [or_imp, forall_and] using ⟨all, others⟩⟩

theorem Leads.mono {other : L → Prop} (sub : ∀ label, among label → other label)
    (leads : Leads step among s t) : Leads step other s t := by
  obtain ⟨labels, trace, all⟩ := leads
  exact ⟨labels, trace, fun label inside => sub label (all label inside)⟩

theorem Leads.keeps {holds : S → Prop} (kept : ∀ s label t, holds s → step s label t → holds t)
    (leads : Leads step among s t) (before : holds s) : holds t := by
  obtain ⟨_, trace, _⟩ := leads
  exact trace.keeps kept before

end TemplateSync
