/-
**Python dictionaries with string keys.**

The program keeps its state in `dict`s keyed by strings: an account's positions by token id, the
order-book store's books by token id, the accounts by symbol. `Dict α` is such a dictionary as the
program uses it: its entries in insertion order, every key at most once (`nodupKeys`).

* `Dict.get?`, `Dict.getD` — `d.get(key)` and `d.get(key, default)`;
* `Dict.insert` — `d[key] = value`: an existing key keeps its place, a new key goes last;
* `getD_insert_self`, `getD_insert_ne` — what a lookup sees after an assignment;
* `sumBy_insert` — a sum over the values after an assignment: the old value out, the new one in;
* `mem_insert` — every entry after an assignment is the new one or an old one.
-/

import Mathlib.Data.List.Nodup
import Mathlib.Algebra.Order.Field.Rat
import Mathlib.Tactic.Ring

namespace PaperTrader

/-- A `dict` keyed by strings: its entries in insertion order, each key at most once. -/
structure Dict (α : Type) where
  entries : List (String × α)
  nodupKeys : (entries.map Prod.fst).Nodup

namespace Dict

variable {α : Type}

/-- Two dictionaries are equal when their entries are. -/
instance [DecidableEq α] : DecidableEq (Dict α) := fun first second =>
  decidable_of_iff (first.entries = second.entries) (by
    cases first
    cases second
    simp)

/-! ### Entry lists -/

/-- The value of `key` in `entries`, the first one found. -/
def lookupEntry (key : String) : List (String × α) → Option α
  | [] => none
  | (k, v) :: rest => if k = key then some v else lookupEntry key rest

/-- `entries` with `key` set to `value`: its entry replaced where it stands, or a new entry last. -/
def setEntry (key : String) (value : α) : List (String × α) → List (String × α)
  | [] => [(key, value)]
  | (k, v) :: rest => if k = key then (key, value) :: rest else (k, v) :: setEntry key value rest

theorem keys_setEntry (key : String) (value : α) (entries : List (String × α)) :
    (setEntry key value entries).map Prod.fst =
      if key ∈ entries.map Prod.fst then entries.map Prod.fst
      else entries.map Prod.fst ++ [key] := by
  induction entries with
  | nil => rfl
  | cons entry rest ih =>
    obtain ⟨k, v⟩ := entry
    by_cases same : k = key
    · simp [setEntry, same]
    · by_cases present : key ∈ rest.map Prod.fst
      · simp [setEntry, same, ih, present]
      · simp [setEntry, same, ih, present, Ne.symm same]

theorem nodup_setEntry (key : String) (value : α) {entries : List (String × α)}
    (nodup : (entries.map Prod.fst).Nodup) : ((setEntry key value entries).map Prod.fst).Nodup := by
  rw [keys_setEntry]
  split
  · exact nodup
  · rename_i absent
    exact nodup.append (List.nodup_singleton key) (List.disjoint_singleton.mpr absent)

theorem lookupEntry_setEntry (key other : String) (value : α) (entries : List (String × α)) :
    lookupEntry other (setEntry key value entries) =
      if key = other then some value else lookupEntry other entries := by
  induction entries with
  | nil => simp [setEntry, lookupEntry]
  | cons entry rest ih =>
    obtain ⟨k, v⟩ := entry
    by_cases same : k = key
    · subst same
      by_cases hit : k = other <;> simp [setEntry, lookupEntry, hit]
    · by_cases hit : k = other
      · subst hit
        simp [setEntry, lookupEntry, same, Ne.symm same]
      · simp [setEntry, lookupEntry, same, hit, ih]

theorem mem_setEntry {key : String} {value : α} {entries : List (String × α)}
    {entry : String × α} (member : entry ∈ setEntry key value entries) :
    entry = (key, value) ∨ entry ∈ entries := by
  induction entries with
  | nil => simpa [setEntry] using member
  | cons head rest ih =>
    obtain ⟨k, v⟩ := head
    by_cases same : k = key
    · simp only [setEntry, same, if_true, List.mem_cons] at member
      rcases member with rfl | member
      · exact .inl rfl
      · exact .inr (List.mem_cons_of_mem _ member)
    · simp only [setEntry, same, if_false, List.mem_cons] at member
      rcases member with rfl | member
      · exact .inr (List.mem_cons_self _ _)
      · exact (ih member).imp_right (List.mem_cons_of_mem _)

theorem setEntry_of_not_mem {key : String} {value : α} :
    ∀ {entries : List (String × α)}, key ∉ entries.map Prod.fst →
      setEntry key value entries = entries ++ [(key, value)]
  | [], _ => rfl
  | (k, v) :: rest, absent => by
    simp only [List.map_cons, List.mem_cons, not_or] at absent
    simp [setEntry, Ne.symm absent.1, setEntry_of_not_mem absent.2]

/-- `entries` with `f` applied to each value, `none` when `f` fails on one. -/
def traverseEntries {β : Type} (f : α → Option β) :
    List (String × α) → Option (List (String × β))
  | [] => some []
  | (k, v) :: rest => (f v).bind fun w => (traverseEntries f rest).map ((k, w) :: ·)

theorem traverseEntries_keys {β : Type} {f : α → Option β} :
    ∀ {entries : List (String × α)} {entries' : List (String × β)},
      traverseEntries f entries = some entries' → entries'.map Prod.fst = entries.map Prod.fst
  | [], _, converted => by
    simp only [traverseEntries, Option.some.injEq] at converted
    simp [← converted]
  | (k, v) :: rest, _, converted => by
    simp only [traverseEntries, Option.bind_eq_some, Option.map_eq_some'] at converted
    obtain ⟨w, -, rest', later, rfl⟩ := converted
    simp [traverseEntries_keys later]

theorem traverseEntries_map {β γ : Type} (g : α → β) (f : β → Option γ) (h : α → γ)
    (inverse : ∀ a, f (g a) = some (h a)) :
    ∀ entries : List (String × α),
      traverseEntries f (entries.map fun entry => (entry.1, g entry.2)) =
        some (entries.map fun entry => (entry.1, h entry.2))
  | [] => rfl
  | (k, v) :: rest => by simp [traverseEntries, inverse, traverseEntries_map g f h inverse rest]

/-! ### The dictionary operations -/

/-- `{}`. -/
def empty : Dict α := ⟨[], List.nodup_nil⟩

/-- `d.get(key)`. -/
def get? (d : Dict α) (key : String) : Option α := lookupEntry key d.entries

/-- `d.get(key, default)`. -/
def getD (d : Dict α) (key : String) (default : α) : α := (d.get? key).getD default

/-- `d[key] = value`. -/
def insert (d : Dict α) (key : String) (value : α) : Dict α :=
  ⟨setEntry key value d.entries, nodup_setEntry key value d.nodupKeys⟩

/-- `{k: f(v) for k, v in d.items()}`. -/
def map {β : Type} (f : α → β) (d : Dict α) : Dict β :=
  ⟨d.entries.map fun entry => (entry.1, f entry.2), by rw [List.map_map]; exact d.nodupKeys⟩

/-- `{k: f(v) for k, v in d.items()}` for an `f` that may fail: `none` when it fails on a value. -/
def traverse {β : Type} (f : α → Option β) (d : Dict α) : Option (Dict β) :=
  match converted : traverseEntries f d.entries with
  | some entries => some ⟨entries, by rw [traverseEntries_keys converted]; exact d.nodupKeys⟩
  | none => none

/-- The sum of `f` over the values, `sum(f(v) for v in d.values())`. -/
def sumBy (f : α → ℚ) (d : Dict α) : ℚ := (d.entries.map fun entry => f entry.2).sum

theorem ext {d e : Dict α} (same : d.entries = e.entries) : d = e := by
  cases d
  cases e
  cases same
  rfl

theorem get?_insert (d : Dict α) (key other : String) (value : α) :
    (d.insert key value).get? other = if key = other then some value else d.get? other :=
  lookupEntry_setEntry key other value d.entries

/-- A new key goes last. -/
theorem insert_entries_of_not_mem {d : Dict α} {key : String} (value : α)
    (absent : key ∉ d.entries.map Prod.fst) : (d.insert key value).entries = d.entries ++ [(key, value)] :=
  setEntry_of_not_mem absent

/-- Undoing a map value by value gives back what was mapped. -/
theorem traverse_map {β γ : Type} (g : α → β) (f : β → Option γ) (h : α → γ)
    (inverse : ∀ a, f (g a) = some (h a)) (d : Dict α) : (d.map g).traverse f = some (d.map h) := by
  unfold traverse
  split
  · next entries converted =>
    rw [map, traverseEntries_map g f h inverse] at converted
    exact congrArg some (ext (Option.some.inj converted).symm)
  · next converted => simp [map, traverseEntries_map g f h inverse] at converted

@[simp] theorem map_id' (d : Dict α) : d.map (fun a => a) = d := ext (by simp [map])

theorem get?_map {β : Type} (f : α → β) (d : Dict α) (key : String) :
    (d.map f).get? key = (d.get? key).map f := by
  obtain ⟨entries, _⟩ := d
  simp only [get?, map]
  induction entries with
  | nil => rfl
  | cons entry rest ih =>
    obtain ⟨k, v⟩ := entry
    by_cases same : k = key <;> simp_all [lookupEntry]

@[simp] theorem getD_empty (key : String) (default : α) : (empty : Dict α).getD key default = default :=
  rfl

@[simp] theorem getD_insert_self (d : Dict α) (key : String) (value default : α) :
    (d.insert key value).getD key default = value := by
  simp [getD, get?, insert, lookupEntry_setEntry]

@[simp] theorem getD_insert_ne (d : Dict α) {key other : String} (value default : α)
    (different : other ≠ key) : (d.insert key value).getD other default = d.getD other default := by
  simp [getD, get?, insert, lookupEntry_setEntry, Ne.symm different]

theorem getD_insert (d : Dict α) (key other : String) (value default : α) :
    (d.insert key value).getD other default =
      if other = key then value else d.getD other default := by
  split
  · subst_vars; exact getD_insert_self d _ value default
  · exact getD_insert_ne d value default ‹_›

theorem mem_of_lookupEntry {key : String} {value : α} :
    ∀ {entries : List (String × α)}, lookupEntry key entries = some value → (key, value) ∈ entries
  | [], found => by simp [lookupEntry] at found
  | (k, v) :: rest, found => by
    simp only [lookupEntry] at found
    split_ifs at found with same
    · obtain rfl := Option.some.inj found
      exact same ▸ List.mem_cons_self _ _
    · exact List.mem_cons_of_mem _ (mem_of_lookupEntry found)

theorem lookupEntry_eq_none_iff {key : String} :
    ∀ {entries : List (String × α)}, lookupEntry key entries = none ↔ key ∉ entries.map Prod.fst
  | [] => by simp [lookupEntry]
  | (k, v) :: rest => by
    by_cases same : k = key
    · simp [lookupEntry, same]
    · simp [lookupEntry, same, Ne.symm same, lookupEntry_eq_none_iff]

/-- A key that is present is found. -/
theorem exists_get?_of_mem {d : Dict α} {key : String} (member : key ∈ d.entries.map Prod.fst) :
    ∃ value, d.get? key = some value ∧ (key, value) ∈ d.entries := by
  cases found : d.get? key with
  | none => exact absurd member (lookupEntry_eq_none_iff.mp found)
  | some value => exact ⟨value, rfl, mem_of_lookupEntry found⟩

theorem get?_eq_none_of_not_mem {d : Dict α} {key : String} (absent : key ∉ d.entries.map Prod.fst) :
    d.get? key = none :=
  lookupEntry_eq_none_iff.mpr absent

/-- A property of every value and of the default holds of a lookup. -/
theorem getD_of_forall {P : α → Prop} (d : Dict α) (key : String) (default : α)
    (every : ∀ entry ∈ d.entries, P entry.2) (fallback : P default) : P (d.getD key default) := by
  unfold getD get?
  cases found : lookupEntry key d.entries with
  | none => exact fallback
  | some value => exact every _ (mem_of_lookupEntry found)

/-- A property of every value and of the new one holds of every value after an assignment. -/
theorem forall_insert {P : α → Prop} {d : Dict α} {key : String} {value : α}
    (every : ∀ entry ∈ d.entries, P entry.2) (new : P value) :
    ∀ entry ∈ (d.insert key value).entries, P entry.2 := by
  intro entry member
  rcases mem_setEntry member with rfl | old
  · exact new
  · exact every entry old

theorem mem_insert {d : Dict α} {key : String} {value : α} {entry : String × α}
    (member : entry ∈ (d.insert key value).entries) : entry = (key, value) ∨ entry ∈ d.entries :=
  mem_setEntry member

theorem sumBy_setEntry (f : α → ℚ) (key : String) (value default : α) (zero : f default = 0)
    (entries : List (String × α)) :
    ((setEntry key value entries).map fun entry => f entry.2).sum =
      (entries.map fun entry => f entry.2).sum - f ((lookupEntry key entries).getD default) +
        f value := by
  induction entries with
  | nil => simp [setEntry, lookupEntry, zero]
  | cons entry rest ih =>
    obtain ⟨k, v⟩ := entry
    by_cases same : k = key
    · simp only [setEntry, lookupEntry, same, if_true, List.map_cons, List.sum_cons,
        Option.getD_some]
      ring
    · simp only [setEntry, lookupEntry, same, if_false, List.map_cons, List.sum_cons, ih]
      ring

/-- **An assignment changes a sum over the values by the new value less the old one.** -/
theorem sumBy_insert (f : α → ℚ) (d : Dict α) (key : String) (value default : α)
    (zero : f default = 0) :
    (d.insert key value).sumBy f = d.sumBy f - f (d.getD key default) + f value :=
  sumBy_setEntry f key value default zero d.entries

end Dict

end PaperTrader
