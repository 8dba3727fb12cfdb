import Mathlib.Data.List.Basic

/-! Bit fields between aligned blocks. A writer pads with zeros where it aligns and a reader
drops the rest of its byte where it aligns. A skip is a place where only the reader aligns,
so the two cursors can come apart there. -/
namespace Ashamane.Lib.BitStream

inductive Item where
  | bit (b : Bool)
  | align
  | block (l : List Bool)
  | skip
  deriving DecidableEq, Repr

inductive Shape where
  | bit
  | align
  | block (n : Nat)
  | skip
  deriving DecidableEq, Repr

def Item.shape : Item → Shape
  | .bit _ => .bit
  | .align => .align
  | .block l => .block l.length
  | .skip => .skip

def up (n : Nat) : Nat := (n + 7) / 8 * 8

def pad (l : List Bool) : List Bool := l ++ List.replicate (up l.length - l.length) false

theorem le_up (n : Nat) : n ≤ up n := by unfold up; omega

theorem up_mod (n : Nat) : up n % 8 = 0 := by unfold up; omega

theorem up_of_mod (n : Nat) (h : n % 8 = 0) : up n = n := by unfold up; omega

theorem up_mono {m n : Nat} (h : m ≤ n) : up m ≤ up n := by unfold up; omega

@[simp] theorem length_pad (l : List Bool) : (pad l).length = up l.length := by
  have := le_up l.length
  simp [pad]; omega

theorem prefix_pad (l : List Bool) : l <+: pad l := List.prefix_append _ _

theorem pad_zero (l : List Bool) (i : Nat) (h : l.length ≤ i) (hi : i < up l.length) :
    (pad l)[i]? = some false := by
  rw [pad, List.getElem?_append_right h, List.getElem?_replicate, if_pos (by omega)]

def put (acc : List Bool) : Item → List Bool
  | .bit b => acc ++ [b]
  | .align => pad acc
  | .block l => pad acc ++ l
  | .skip => acc

def putAll (acc : List Bool) : List Item → List Bool
  | [] => acc
  | x :: items => putAll (put acc x) items

/-- One read at bit position `r` of the stored bits. -/
def get (S : List Bool) (r : Nat) : Shape → Option (Item × Nat)
  | .bit => S[r]?.map fun b => (.bit b, r + 1)
  | .align => some (.align, up r)
  | .block n =>
    if up r + n ≤ S.length then some (.block ((S.drop (up r)).take n), up r + n) else none
  | .skip => some (.skip, up r)

theorem get_block_iff (S l : List Bool) (r r' n : Nat) :
    get S r (.block n) = some (.block l, r') ↔
      up r + n ≤ S.length ∧ (S.drop (up r)).take n = l ∧ up r + n = r' := by
  simp only [get]
  by_cases h : up r + n ≤ S.length <;> simp [h]

def getAll (S : List Bool) (r : Nat) : List Shape → Option (List Item × Nat)
  | [] => some ([], r)
  | sh :: shapes => do
    let (x, r) ← get S r sh
    let (items, r) ← getAll S r shapes
    return (x :: items, r)

theorem getAll_append (S : List Bool) (r : Nat) (xs ys : List Shape) :
    getAll S r (xs ++ ys) =
      (getAll S r xs).bind fun (items, r) =>
        (getAll S r ys).map fun (items', r) => (items ++ items', r) := by
  induction xs generalizing r with
  | nil => simp [getAll]
  | cons sh xs ih =>
    simp only [List.cons_append, getAll]
    cases get S r sh with
    | none => rfl
    | some x =>
      simp only [Option.bind_eq_bind, Option.bind_some, ih, Option.pure_def]
      cases getAll S x.2 xs with
      | none => rfl
      | some y =>
        simp only [Option.bind_some]
        cases getAll S y.2 ys <;> rfl

theorem getAll_singleton (S : List Bool) (r : Nat) (sh : Shape) :
    getAll S r [sh] = (get S r sh).map fun (x, r) => ([x], r) := by
  simp only [getAll]
  cases get S r sh <;> rfl

theorem length_of_getAll (S : List Bool) (r e : Nat) (shapes : List Shape) (items : List Item)
    (h : getAll S r shapes = some (items, e)) : items.length = shapes.length := by
  induction shapes generalizing r items with
  | nil => simp only [getAll, Option.some.injEq, Prod.mk.injEq] at h; simp [← h.1]
  | cons sh shapes ih =>
    simp only [getAll, Option.bind_eq_bind, Option.bind_eq_some_iff, Option.pure_def] at h
    obtain ⟨⟨x, r'⟩, -, ⟨items', e'⟩, hall, hx⟩ := h
    obtain ⟨rfl, rfl⟩ : x :: items' = items ∧ e' = e := by simpa using hx
    simp [ih r' items' hall]

def stored (l : List Bool) : List Bool := l.take (l.length / 8 * 8)

def InStep (w r : Nat) : List Item → Prop
  | [] => w % 8 = 0 ∧ r = w
  | .bit b :: items => (w = r ∨ b = false) ∧ InStep (w + 1) (r + 1) items
  | .align :: items => InStep (up w) (up r) items
  | .block l :: items => InStep (up w + l.length) (up r + l.length) items
  | .skip :: items => InStep w (up r) items

def WholeBytes (items : List Item) : Prop := ∀ l, .block l ∈ items → l.length % 8 = 0

theorem WholeBytes.tail {x : Item} {items : List Item} (h : WholeBytes (x :: items)) :
    WholeBytes items := fun l hl => h l (List.mem_cons_of_mem _ hl)

theorem putAll_append (acc : List Bool) (xs ys : List Item) :
    putAll acc (xs ++ ys) = putAll (putAll acc xs) ys := by
  induction xs generalizing acc with
  | nil => rfl
  | cons x xs ih => exact ih (put acc x)

theorem putAll_prefix (acc : List Bool) (items : List Item) : acc <+: putAll acc items := by
  induction items generalizing acc with
  | nil => exact List.prefix_rfl
  | cons x items ih =>
    refine List.IsPrefix.trans ?_ (ih (put acc x))
    cases x with
    | bit b => exact List.prefix_append _ _
    | align => exact prefix_pad acc
    | block l => exact (prefix_pad acc).trans (List.prefix_append _ _)
    | skip => exact List.prefix_rfl

theorem getElem?_putAll (acc : List Bool) (items : List Item) (i : Nat) (h : i < acc.length) :
    (putAll acc items)[i]? = acc[i]? := by
  obtain ⟨t, ht⟩ := putAll_prefix acc items
  rw [← ht, List.getElem?_append_left h]

theorem not_inStep_of_far (items : List Item) (w r : Nat) (h : w + 8 ≤ r) :
    ¬ InStep w r items := by
  induction items generalizing w r with
  | nil => rintro ⟨-, h'⟩; omega
  | cons x items ih =>
    cases x with
    | bit b => exact fun h' => ih (w + 1) (r + 1) (by omega) h'.2
    | align => exact ih _ _ (by unfold up; omega)
    | block l => exact ih _ _ (by unfold up; omega)
    | skip => exact ih w (up r) (Nat.le_trans h (le_up r))

theorem up_eq_of_inStep {items : List Item} {w r n : Nat} (hwr : w ≤ r)
    (h : InStep (up w + n) (up r + n) items) : up w = up r := by
  by_contra hne
  have := up_mono hwr
  have := up_mod w
  have := up_mod r
  exact not_inStep_of_far items _ _ (by omega) h

theorem length_putAll_mod (items : List Item) (acc : List Bool) (r : Nat)
    (hb : WholeBytes items) (h : InStep acc.length r items) : (putAll acc items).length % 8 = 0 := by
  induction items generalizing acc r with
  | nil => exact h.1
  | cons x items ih =>
    cases x with
    | bit b => exact ih (acc ++ [b]) (r + 1) hb.tail (by simpa using h.2)
    | align => exact ih (pad acc) (up r) hb.tail (by simpa [InStep] using h)
    | block l => exact ih (pad acc ++ l) (up r + l.length) hb.tail (by simpa [InStep] using h)
    | skip => exact ih acc (up r) hb.tail h

theorem stored_of_mod (l : List Bool) (h : l.length % 8 = 0) : stored l = l := by
  rw [stored, List.take_of_length_le (by omega)]

theorem length_stored (l : List Bool) : (stored l).length = l.length / 8 * 8 := by
  rw [stored, List.length_take]; omega

theorem zero_between (items : List Item) (acc : List Bool) (r : Nat)
    (h : InStep acc.length r items) (i : Nat) (hi : acc.length ≤ i) (hir : i < r) :
    (putAll acc items)[i]? = some false := by
  induction items generalizing acc r with
  | nil => have := h.2; omega
  | cons x items ih =>
    cases x with
    | bit b =>
      have hb : b = false := h.1.resolve_left (by omega)
      subst hb
      rcases Nat.eq_or_lt_of_le hi with rfl | hlt
      · rw [putAll, getElem?_putAll _ _ _ (by simp [put])]
        simp [put]
      · exact ih (acc ++ [false]) (r + 1) (by simpa using h.2) (by simp; omega) (by omega)
    | align =>
      have hup : up acc.length = up r := up_eq_of_inStep (by omega) (n := 0) h
      have hlt : i < up acc.length := hup ▸ Nat.lt_of_lt_of_le hir (le_up r)
      rw [putAll, getElem?_putAll _ _ _ (by simpa [put] using hlt)]
      exact pad_zero acc i hi hlt
    | block l =>
      have hup : up acc.length = up r := up_eq_of_inStep (by omega) h
      have hlt : i < up acc.length := hup ▸ Nat.lt_of_lt_of_le hir (le_up r)
      rw [putAll, getElem?_putAll _ _ _ (by simp [put]; omega)]
      rw [put, List.getElem?_append_left (by simpa using hlt)]
      exact pad_zero acc i hi hlt
    | skip => exact ih acc (up r) h hi (Nat.lt_of_lt_of_le hir (le_up r))

/-- What the reader finds for a bit that was written at `acc.length`. -/
theorem getElem?_bit_iff (items : List Item) (acc : List Bool) (b : Bool) (r : Nat)
    (hr : acc.length ≤ r) (h : InStep (acc.length + 1) (r + 1) items) :
    (putAll (acc ++ [b]) items)[r]? = some b ↔ acc.length = r ∨ b = false := by
  rcases Nat.eq_or_lt_of_le hr with rfl | hlt
  · rw [getElem?_putAll _ _ _ (by simp)]
    simp
  · rw [zero_between items (acc ++ [b]) (r + 1) (by simpa using h) r (by simp; omega)
      (Nat.lt_succ_self r)]
    simp [Nat.ne_of_lt hlt, eq_comm]

theorem block_between (items : List Item) (acc l : List Bool) :
    up acc.length + l.length ≤ (putAll (pad acc ++ l) items).length ∧
      ((putAll (pad acc ++ l) items).drop (up acc.length)).take l.length = l := by
  obtain ⟨t, ht⟩ := putAll_prefix (pad acc ++ l) items
  rw [← ht]
  constructor
  · simp
  · rw [List.append_assoc, ← length_pad, List.drop_left, List.take_left]

theorem getAll_cons (S : List Bool) (r e : Nat) (x : Item) (items : List Item) :
    getAll S r ((x :: items).map Item.shape) = some (x :: items, e) ↔
      ∃ r', get S r x.shape = some (x, r') ∧
        getAll S r' (items.map Item.shape) = some (items, e) := by
  simp [getAll, Option.bind_eq_some_iff]

/-- Reading back what was written gives the same items and ends where the writer ended
exactly when the two stay in step. -/
theorem getAll_iff (items : List Item) (acc : List Bool) (r : Nat) (hb : WholeBytes items)
    (hr : acc.length ≤ r) :
    (∃ e, getAll (stored (putAll acc items)) r (items.map Item.shape) = some (items, e) ∧
      up e = (stored (putAll acc items)).length) ↔ InStep acc.length r items := by
  induction items generalizing acc r with
  | nil =>
    simp only [putAll, getAll, List.map_nil, Option.some.injEq, Prod.mk.injEq, true_and,
      exists_eq_left', length_stored, InStep]
    unfold up
    omega
  | cons x items ih =>
    simp only [getAll_cons]
    cases x with
    | bit b =>
      have ih' := ih (acc ++ [b]) (r + 1) hb.tail (by simpa using hr)
      rw [List.length_append, List.length_singleton] at ih'
      simp only [Item.shape, get, putAll, put, InStep]
      constructor
      · rintro ⟨e, ⟨r', hget, hall⟩, he⟩
        obtain ⟨b', hb', hbr⟩ := Option.map_eq_some_iff.mp hget
        obtain ⟨rfl, rfl⟩ : b' = b ∧ r + 1 = r' := by simpa using hbr
        have hin := ih'.mp ⟨e, hall, he⟩
        refine ⟨(getElem?_bit_iff items acc b' r hr hin).mp ?_, hin⟩
        rwa [stored_of_mod _ (length_putAll_mod items _ _ hb.tail (by simpa using hin))] at hb'
      · rintro ⟨hz, hin⟩
        obtain ⟨e, hall, he⟩ := ih'.mpr hin
        refine ⟨e, ⟨r + 1, ?_, hall⟩, he⟩
        rw [stored_of_mod _ (length_putAll_mod items _ _ hb.tail (by simpa using hin)),
          (getElem?_bit_iff items acc b r hr hin).mpr hz]
        rfl
    | align =>
      have ih' := ih (pad acc) (up r) hb.tail (by simpa using up_mono hr)
      rw [length_pad] at ih'
      simpa [Item.shape, get, putAll, put, InStep] using ih'
    | block l =>
      have ih' := ih (pad acc ++ l) (up r + l.length) hb.tail (by simpa using up_mono hr)
      rw [List.length_append, length_pad] at ih'
      simp only [Item.shape, get_block_iff, putAll, put, InStep]
      constructor
      · rintro ⟨e, ⟨r', ⟨-, -, rfl⟩, hall⟩, he⟩
        exact ih'.mp ⟨e, hall, he⟩
      · intro hin
        obtain ⟨e, hall, he⟩ := ih'.mpr hin
        have hmod := length_putAll_mod items (pad acc ++ l) _ hb.tail (by simpa using hin)
        obtain ⟨hle, htake⟩ := block_between items acc l
        refine ⟨e, ⟨up r + l.length, ⟨?_, ?_, rfl⟩, hall⟩, he⟩
        · rwa [stored_of_mod _ hmod, ← up_eq_of_inStep hr hin]
        · rwa [stored_of_mod _ hmod, ← up_eq_of_inStep hr hin]
    | skip =>
      have ih' := ih acc (up r) hb.tail (Nat.le_trans hr (le_up r))
      simpa [Item.shape, get, putAll, put, InStep] using ih'

end Ashamane.Lib.BitStream
