import Mathlib.Data.List.Lex
import Mathlib.Data.Prod.Lex
import Mathlib.Order.Nat
import TemplateSync.Path

set_option autoImplicit false

namespace TemplateSync.Path

def Component.octets : Component → Bytes
  | .root | .current | .parent => []
  | .name bytes => bytes

def Component.key (component : Component) : ℕ ×ₗ List ℕ :=
  toLex (component.rank, component.octets.map UInt8.toNat)

def key (path : Path) : List (ℕ ×ₗ List ℕ) :=
  path.components.map Component.key

def Before (p q : Path) : Prop :=
  p.key < q.key

theorem toNat_injective : Function.Injective (List.map UInt8.toNat) :=
  List.map_injective_iff.mpr fun _ _ same => UInt8.toNat_inj.mp same

theorem Component.key_injective : Function.Injective Component.key := by
  intro a b same
  have parts := congrArg ofLex same
  cases a <;> cases b <;> simp_all [key, rank, octets, toNat_injective.eq_iff]

theorem nil_le {α : Type} [LinearOrder α] (as : List α) : [] ≤ as :=
  not_lt.mp (List.not_lt_nil as)

theorem cons_le_cons {α : Type} [LinearOrder α] {a b : α} {as bs : List α} :
    a :: as ≤ b :: bs ↔ a < b ∨ a = b ∧ as ≤ bs := by
  rw [← not_lt, List.cons_lt_cons_iff, ← not_lt (a := bs)]
  rcases lt_trichotomy a b with less | same | more
  next => simp [less, less.not_gt, less.ne']
  next => simp [same]
  next => simp [more, more.not_gt, more.ne']

theorem bytesLe_iff {a b : Bytes} : bytesLe a b = true ↔ a.map UInt8.toNat ≤ b.map UInt8.toNat := by
  induction a generalizing b with
  | nil => simp [bytesLe, nil_le]
  | cons first rest ih =>
    cases b with
    | nil => simp [bytesLe]
    | cons other others => simp [bytesLe, ih, cons_le_cons, UInt8.lt_iff_toNat_lt, UInt8.toNat_inj]

theorem Component.le_iff {a b : Component} : a.le b = true ↔ a.key ≤ b.key := by
  cases a <;> cases b <;> simp [Component.le, key, rank, octets, Prod.Lex.toLex_le_toLex, bytesLe_iff]

theorem componentsLe_iff {as bs : List Component} :
    componentsLe as bs = true ↔ as.map Component.key ≤ bs.map Component.key := by
  induction as generalizing bs with
  | nil => simp [componentsLe, nil_le]
  | cons a as ih =>
    cases bs with
    | nil => simp [componentsLe]
    | cons b bs =>
      rw [List.map_cons, List.map_cons, cons_le_cons, componentsLe]
      by_cases same : a = b
      next => simp [same, ih]
      next =>
        have apart : a.key ≠ b.key := Component.key_injective.ne same
        simp [same, apart, Component.le_iff, le_iff_lt_or_eq]

theorem le_iff {p q : Path} : p.le q = true ↔ p.key ≤ q.key :=
  componentsLe_iff

end TemplateSync.Path
