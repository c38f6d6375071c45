import KeyVault.Bytes

/-!
# Maps from names

Finite maps from names, kept as a list in the order of the names' UTF-8 bytes.

## Main definitions

- `Before` — the order of names
- `Members.insert`, `Members.find?` — insertion into and look-up in a list of named values
- `NameMap` — a list that is sorted, so that a map has one representation

## Main statements

- `NameMap.find?_insert` — what a map holds after an insertion
- `NameMap.size_insert`, `NameMap.size_eq_add_countP` — how many names a map has
- `NameMap.names_eq` — maps with the same names list them alike
- `NameMap.ext_find?` — maps that hold the same are equal
-/

namespace KeyVault

/-- One name stands before another: its UTF-8 bytes are lexicographically less. -/
def Before (a b : String) : Prop := Bytes.ofString a < Bytes.ofString b

instance (a b : String) : Decidable (Before a b) :=
  inferInstanceAs (Decidable (Bytes.ofString a < Bytes.ofString b))

namespace Before

theorem irrefl (a : String) : ¬ Before a a := List.lt_irrefl _

theorem trans {a b c : String} (h : Before a b) (h' : Before b c) : Before a c :=
  List.lt_trans h h'

theorem asymm {a b : String} (h : Before a b) : ¬ Before b a := fun h' => irrefl a (h.trans h')

theorem ne {a b : String} (h : Before a b) : a ≠ b := fun e => irrefl b (e ▸ h)

/-- Of two different names one stands before the other. -/
theorem of_not_before {a b : String} (h : ¬ Before a b) (hne : a ≠ b) : Before b a :=
  Classical.byContradiction fun h' =>
    hne (Bytes.ofString_injective (List.le_antisymm (List.not_lt.1 h') (List.not_lt.1 h)))

end Before

namespace Members

variable {α : Type}

/-- Puts a value under a name into a sorted list, in place of an earlier one of that name. -/
def insert (name : String) (value : α) : List (String × α) → List (String × α)
  | [] => [(name, value)]
  | (n, v) :: rest =>
    if Before name n then (name, value) :: (n, v) :: rest
    else if name = n then (name, value) :: rest
    else (n, v) :: insert name value rest

def find? (name : String) : List (String × α) → Option α
  | [] => none
  | (n, v) :: rest => if name = n then some v else find? name rest

/-- The names stand in their order, each once. -/
def Sorted (l : List (String × α)) : Prop := l.Pairwise fun a b => Before a.1 b.1

theorem mem_insert {name : String} {value : α} {l : List (String × α)} {e : String × α}
    (h : e ∈ insert name value l) : e = (name, value) ∨ e ∈ l := by
  induction l with
  | nil => exact Or.inl (List.mem_singleton.1 h)
  | cons x rest ih =>
    obtain ⟨n, v⟩ := x
    rw [insert] at h
    split at h
    · exact (List.mem_cons.1 h)
    · split at h
      · rcases List.mem_cons.1 h with h | h
        · exact Or.inl h
        · exact Or.inr (List.mem_cons_of_mem _ h)
      · rcases List.mem_cons.1 h with h | h
        · exact Or.inr (h ▸ List.mem_cons_self)
        · exact (ih h).imp_right (List.mem_cons_of_mem _)

/-- Insertion keeps the order. -/
theorem sorted_insert (name : String) (value : α) {l : List (String × α)} (h : Sorted l) :
    Sorted (insert name value l) := by
  induction l with
  | nil => simp [insert, Sorted]
  | cons x rest ih =>
    obtain ⟨n, v⟩ := x
    obtain ⟨hx, hrest⟩ := List.pairwise_cons.1 h
    rw [insert]
    split
    · rename_i hn
      refine List.pairwise_cons.2 ⟨fun e he => ?_, h⟩
      rcases List.mem_cons.1 he with rfl | he
      · exact hn
      · exact hn.trans (hx e he)
    · rename_i hn
      split
      · rename_i he
        subst he
        exact List.pairwise_cons.2 ⟨hx, hrest⟩
      · rename_i hne
        refine List.pairwise_cons.2 ⟨fun e he => ?_, ih hrest⟩
        rcases mem_insert he with rfl | he
        · exact Before.of_not_before hn hne
        · exact hx e he

theorem find?_eq_none_of_before {name : String} {l : List (String × α)}
    (h : ∀ e ∈ l, Before name e.1) : find? name l = none := by
  induction l with
  | nil => rfl
  | cons x rest ih =>
    obtain ⟨n, v⟩ := x
    rw [find?, if_neg (h (n, v) List.mem_cons_self).ne]
    exact ih fun e he => h e (List.mem_cons_of_mem _ he)

theorem find?_insert (name n : String) (value : α) (l : List (String × α)) :
    find? n (insert name value l) = if n = name then some value else find? n l := by
  induction l with
  | nil => rfl
  | cons x rest ih =>
    obtain ⟨m, v⟩ := x
    rw [insert]
    split
    · rfl
    · split
      · rename_i he
        subst he
        by_cases hn : n = name <;> simp [find?, hn]
      · rename_i hne
        rw [find?, find?, ih]
        by_cases hm : n = m
        · subst hm
          simp [Ne.symm hne]
        · simp [hm]

theorem mem_of_find? {name : String} {value : α} {l : List (String × α)}
    (h : find? name l = some value) : (name, value) ∈ l := by
  induction l with
  | nil => cases h
  | cons x rest ih =>
    obtain ⟨n, v⟩ := x
    rw [find?] at h
    split at h
    · rename_i hn
      obtain rfl := Option.some.inj h
      exact hn ▸ List.mem_cons_self
    · exact List.mem_cons_of_mem _ (ih h)

theorem find?_of_mem {name : String} {value : α} {l : List (String × α)} (hl : Sorted l)
    (h : (name, value) ∈ l) : find? name l = some value := by
  induction l with
  | nil => cases h
  | cons x rest ih =>
    obtain ⟨n, v⟩ := x
    obtain ⟨hx, hrest⟩ := List.pairwise_cons.1 hl
    rcases List.mem_cons.1 h with h | h
    · obtain ⟨rfl, rfl⟩ := Prod.mk.inj h
      exact if_pos rfl
    · rw [find?, if_neg (hx _ h).ne.symm]
      exact ih hrest h

/-- A value under a new name makes a list longer by one. -/
theorem length_insert {name : String} {l : List (String × α)} (h : find? name l = none)
    (value : α) : (insert name value l).length = l.length + 1 := by
  induction l with
  | nil => rfl
  | cons x rest ih =>
    obtain ⟨n, v⟩ := x
    rw [find?] at h
    by_cases hname : name = n
    · rw [if_pos hname] at h
      cases h
    · rw [if_neg hname] at h
      rw [insert, if_neg hname]
      split
      · rfl
      · rw [List.length_cons, ih h, List.length_cons]

/-- The name at the front of one list cannot stand before all names of the other. -/
theorem not_before_of_find? {x : String × α} {l m : List (String × α)}
    (h : ∀ name, find? name (x :: l) = find? name m) (hm : ∀ e ∈ m, Before x.1 e.1) : False := by
  have hx := h x.1
  rw [find?_eq_none_of_before hm, find?, if_pos rfl] at hx
  cases hx

/-- Sorted lists that hold the same are equal. -/
theorem eq_of_find? {l m : List (String × α)} (hl : Sorted l) (hm : Sorted m)
    (h : ∀ name, find? name l = find? name m) : l = m := by
  induction l generalizing m with
  | nil =>
    cases m with
    | nil => rfl
    | cons y m => exact (not_before_of_find? (fun name => (h name).symm) (by simp)).elim
  | cons x l ih =>
    cases m with
    | nil => exact (not_before_of_find? h (by simp)).elim
    | cons y m =>
      obtain ⟨hx, hl⟩ := List.pairwise_cons.1 hl
      obtain ⟨hy, hm⟩ := List.pairwise_cons.1 hm
      have hname : x.1 = y.1 := by
        refine Classical.byContradiction fun hne => ?_
        by_cases hxy : Before x.1 y.1
        · exact not_before_of_find? h
            (List.forall_mem_cons.2 ⟨hxy, fun e he => hxy.trans (hy e he)⟩)
        · have hyx := Before.of_not_before hxy hne
          exact not_before_of_find? (fun name => (h name).symm)
            (List.forall_mem_cons.2 ⟨hyx, fun e he => hyx.trans (hx e he)⟩)
      have hvalue : x.2 = y.2 := by
        have := h x.1
        rw [find?, if_pos rfl, find?, if_pos hname] at this
        exact Option.some.inj this
      rw [Prod.ext hname hvalue, ih hl hm fun name => ?_]
      by_cases hn : name = x.1
      · subst hn
        rw [find?_eq_none_of_before hx, find?_eq_none_of_before fun e he => hname ▸ hy e he]
      · have := h name
        rwa [find?, if_neg hn, find?, if_neg (hname ▸ hn)] at this

end Members

/-- A finite map from names. -/
structure NameMap (α : Type) where
  /-- The named values. -/
  entries : List (String × α)
  /-- The names stand in their order, each once. -/
  sorted : Members.Sorted entries

namespace NameMap

variable {α : Type}

def empty : NameMap α := ⟨[], List.Pairwise.nil⟩

/-- Puts a value under a name, in place of an earlier one. -/
def insert (m : NameMap α) (name : String) (value : α) : NameMap α :=
  ⟨Members.insert name value m.entries, Members.sorted_insert name value m.sorted⟩

def find? (m : NameMap α) (name : String) : Option α := Members.find? name m.entries

def contains (m : NameMap α) (name : String) : Bool := (m.find? name).isSome

def size (m : NameMap α) : Nat := m.entries.length

def names (m : NameMap α) : List String := m.entries.map Prod.fst

theorem contains_iff {m : NameMap α} {name : String} :
    m.contains name = true ↔ ∃ a, m.find? name = some a :=
  Option.isSome_iff_exists

theorem contains_eq_false {m : NameMap α} {name : String} :
    m.contains name = false ↔ m.find? name = none := by
  rw [contains, Option.isSome_eq_false_iff, Option.isNone_iff_eq_none]

/-- What a map holds after an insertion. -/
theorem find?_insert (m : NameMap α) (name n : String) (value : α) :
    (m.insert name value).find? n = if n = name then some value else m.find? n :=
  Members.find?_insert name n value m.entries

@[simp]
theorem find?_insert_self (m : NameMap α) (name : String) (value : α) :
    (m.insert name value).find? name = some value := by
  rw [find?_insert, if_pos rfl]

theorem find?_insert_of_ne (m : NameMap α) {name n : String} (value : α) (h : n ≠ name) :
    (m.insert name value).find? n = m.find? n := by
  rw [find?_insert, if_neg h]

/-- A new name makes a map larger by one. -/
theorem size_insert {m : NameMap α} {name : String} (h : m.contains name = false) (value : α) :
    (m.insert name value).size = m.size + 1 :=
  Members.length_insert (contains_eq_false.1 h) value

/-! ### Names -/

theorem mem_names {m : NameMap α} {name : String} :
    name ∈ m.names ↔ m.contains name = true := by
  rw [contains_iff, names, List.mem_map]
  constructor
  · rintro ⟨⟨n, a⟩, hmem, rfl⟩
    exact ⟨a, Members.find?_of_mem m.sorted hmem⟩
  · rintro ⟨a, hfind⟩
    exact ⟨(name, a), Members.mem_of_find? hfind, rfl⟩

theorem nodup_names (m : NameMap α) : m.names.Nodup := by
  have hdiffer : m.entries.Pairwise fun a b => a.1 ≠ b.1 := m.sorted.imp fun h => h.ne
  exact List.pairwise_map.2 hdiffer

theorem length_names (m : NameMap α) : m.names.length = m.size := List.length_map _

theorem pairwise_names (m : NameMap α) : m.names.Pairwise Before := List.pairwise_map.2 m.sorted

/-- Maps with the same names list them alike, whatever their values are. -/
theorem names_eq {β : Type} {m : NameMap α} {n : NameMap β}
    (h : ∀ name, m.contains name = n.contains name) : m.names = n.names := by
  have hmem : ∀ name, name ∈ m.names ↔ name ∈ n.names := by
    intro name
    rw [mem_names, mem_names, h]
  have hperm : m.names.Perm n.names :=
    (List.perm_ext_iff_of_nodup m.nodup_names n.nodup_names).2 hmem
  exact hperm.eq_of_pairwise (fun _ _ _ _ hab hba => absurd hba hab.asymm) m.pairwise_names
    n.pairwise_names

/-- A map that holds all names of another one is larger by those that the other one lacks. -/
theorem size_eq_add_countP {m n : NameMap α}
    (h : ∀ name, m.contains name = true → n.contains name = true) :
    n.size = m.size + n.names.countP fun name => !m.contains name := by
  have hkept : (n.names.filter m.contains).Perm m.names := by
    refine (List.perm_ext_iff_of_nodup (n.nodup_names.filter _) m.nodup_names).2 fun name => ?_
    rw [List.mem_filter, mem_names, mem_names]
    exact ⟨fun hmem => hmem.2, fun hmem => ⟨h name hmem, hmem⟩⟩
  have hsplit := n.names.length_eq_countP_add_countP m.contains
  rw [List.countP_eq_length_filter, hkept.length_eq, length_names, length_names] at hsplit
  simpa using hsplit

/-- Maps that hold the same are equal. -/
theorem ext_find? {l m : NameMap α} (h : ∀ name, l.find? name = m.find? name) : l = m := by
  obtain ⟨l, hl⟩ := l
  obtain ⟨m, hm⟩ := m
  obtain rfl : l = m := Members.eq_of_find? hl hm h
  rfl

end NameMap

end KeyVault
