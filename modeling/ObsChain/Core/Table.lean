/-
Tables with a key, and what `INSERT ... ON CONFLICT (key) DO UPDATE` does to them. Nothing here mentions the program.

A table is a list of rows in which no two have the same key. An insert whose key is there `update`s the row that is there
from the one that was to be inserted; otherwise it appends. `mem_insertAll_iff` says what a list of inserts leaves.

A `Layout` is how the items of an owner are kept in such a table: the row of an item, what an update takes over, how a row
is read again. A write inserts all the items of an owner and deletes nothing. `items_write_iff`: what is read afterwards is
what was written exactly when the write `Keeps` it, a condition on the table before: the items have keys of their own, the
columns that an update leaves alone are right already, a new row can hold its item, and no row of the owner is left out.
`items_write_other`: such a write leaves the items of every other owner. `returns_write`: what is read in any case.
-/
import Mathlib.Tactic
import ObsChain.Core.Upsert

namespace ObsChain

namespace Table

variable {ρ κ : Type*} [DecidableEq κ] (key : ρ → κ) (update : ρ → ρ → ρ)

def insert (new : ρ) : List ρ → List ρ
  | [] => [new]
  | old :: rest => if key old = key new then update old new :: rest else old :: insert new rest

def insertAll (news rows : List ρ) : List ρ := news.foldl (fun rows new => insert key update new rows) rows

/-- inserts one after the other, until one is refused -/
def tryInsertAll (check : List ρ → ρ → Bool) (news rows : List ρ) : Option (List ρ) :=
  news.foldlM (fun rows new => if check rows new then some (insert key update new rows) else none) rows

/-- the row with the key -/
def lookup (k : κ) (rows : List ρ) : Option ρ := rows.find? fun r => decide (key r = k)

/-- the row that an insert leaves under its key -/
def merged (new : ρ) (rows : List ρ) : ρ :=
  match lookup key (key new) rows with
  | some old => update old new
  | none => new

variable {key update}

theorem lookup_eq_some {rows : List ρ} (hnodup : (rows.map key).Nodup) {k : κ} {r : ρ} :
    lookup key k rows = some r ↔ r ∈ rows ∧ key r = k := by
  constructor
  · intro h
    exact ⟨List.mem_of_find?_eq_some h, by simpa using List.find?_some h⟩
  · rintro ⟨hr, rfl⟩
    cases hl : lookup key (key r) rows with
    | none =>
      have hno := List.find?_eq_none.1 hl r hr
      simp at hno
    | some r' =>
      have hr' := List.mem_of_find?_eq_some hl
      have hk : key r' = key r := by simpa using List.find?_some hl
      rw [List.inj_on_of_nodup_map hnodup hr' hr hk]

/-- the row under each key after a replacement -/
theorem lookup_upsert {rows : List ρ} (h : (rows.map key).Nodup) (new : ρ) (k : κ) :
    lookup key k (upsert (fun r => decide (key r = key new)) new rows) =
      if key new = k then some new else lookup key k rows := by
  have hsame : ∀ r, decide (key r = key new) = true ↔ key r = key new := fun r => decide_eq_true_iff
  have hnodup := nodup_upsert key (fun r _ => hsame r) h
  apply Option.ext
  intro r
  rw [lookup_eq_some hnodup, mem_upsert_iff key (fun y _ => hsame y) h]
  split_ifs with hk
  · rw [Option.some.injEq]
    constructor
    · rintro ⟨rfl | ⟨-, hne⟩, hr⟩
      · rfl
      · exact absurd (hr.trans hk.symm) hne
    · rintro rfl
      exact ⟨Or.inl rfl, hk⟩
  · rw [lookup_eq_some h]
    constructor
    · rintro ⟨rfl | ⟨hr, -⟩, hkr⟩
      · exact absurd hkr hk
      · exact ⟨hr, hkr⟩
    · rintro ⟨hr, rfl⟩
      exact ⟨Or.inr ⟨hr, Ne.symm hk⟩, rfl⟩

/-- where none is refused, all are made -/
theorem tryInsertAll_eq_some {check : List ρ → ρ → Bool} {news rows rows' : List ρ}
    (h : tryInsertAll key update check news rows = some rows') : rows' = insertAll key update news rows := by
  induction news generalizing rows with
  | nil => exact (Option.some.inj h).symm
  | cons new news ih =>
    rw [tryInsertAll, List.foldlM_cons] at h
    by_cases hc : check rows new = true
    · rw [if_pos hc] at h
      exact ih h
    · rw [if_neg hc] at h
      cases h

/-- an insert replaces the row of its key by the merged one, or appends it -/
theorem insert_eq_upsert (new : ρ) (rows : List ρ) :
    insert key update new rows = upsert (fun r => decide (key r = key new)) (merged key update new rows) rows := by
  induction rows with
  | nil => rfl
  | cons old rest ih =>
    by_cases h : key old = key new
    · simp [insert, upsert, merged, lookup, h]
    · have hmerged : merged key update new (old :: rest) = merged key update new rest := by
        simp [merged, lookup, h]
      simp [insert, upsert, h, hmerged, ih]

section Laws

variable (hkey : ∀ old new, key (update old new) = key old)

include hkey

theorem key_merged (new : ρ) (rows : List ρ) : key (merged key update new rows) = key new := by
  unfold merged
  cases hl : lookup key (key new) rows with
  | none => rfl
  | some old =>
    have hk : key old = key new := by simpa using List.find?_some hl
    simp [hkey, hk]

theorem same_iff (new : ρ) (rows : List ρ) (r : ρ) :
    decide (key r = key new) = true ↔ key r = key (merged key update new rows) := by
  rw [key_merged hkey, decide_eq_true_eq]

/-- the keys after an insert, in order -/
theorem map_key_insert (new : ρ) (rows : List ρ) :
    (insert key update new rows).map key = upsert (fun k => decide (k = key new)) (key new) (rows.map key) := by
  rw [insert_eq_upsert, ← key_merged hkey new rows]
  exact map_upsert_view key fun _ _ => rfl

theorem nodup_insert {rows : List ρ} (h : (rows.map key).Nodup) (new : ρ) :
    ((insert key update new rows).map key).Nodup := by
  rw [insert_eq_upsert]
  exact nodup_upsert key (fun r _ => same_iff hkey new rows r) h

theorem mem_insert_iff {rows : List ρ} (h : (rows.map key).Nodup) {new z : ρ} :
    z ∈ insert key update new rows ↔ z = merged key update new rows ∨ (z ∈ rows ∧ key z ≠ key new) := by
  rw [insert_eq_upsert, mem_upsert_iff key (fun y _ => same_iff hkey new rows y) h, key_merged hkey]

theorem nodup_insertAll {rows : List ρ} (h : (rows.map key).Nodup) (news : List ρ) :
    ((insertAll key update news rows).map key).Nodup := by
  induction news generalizing rows with
  | nil => exact h
  | cons new news ih => exact ih (nodup_insert hkey h new)

/-- the row under each key after an insert -/
theorem lookup_insert {rows : List ρ} (h : (rows.map key).Nodup) (new : ρ) (k : κ) :
    lookup key k (insert key update new rows) =
      if key new = k then some (merged key update new rows) else lookup key k rows := by
  have hmerged := key_merged hkey new rows
  rw [insert_eq_upsert, ← hmerged]
  exact lookup_upsert h _ k

/-- an insert of another key does not show, and neither does one of the same row -/
theorem merged_insert (hself : ∀ new, update new new = new)
    (hagain : ∀ old new, update (update old new) new = update old new) {rows : List ρ} (h : (rows.map key).Nodup)
    {new other : ρ} (hother : key other = key new → other = new) :
    merged key update other (insert key update new rows) = merged key update other rows := by
  by_cases heq : key new = key other
  · obtain rfl := hother heq.symm
    rw [merged, lookup_insert hkey h, if_pos rfl]
    unfold merged
    cases lookup key (key other) rows with
    | none => exact hself other
    | some old => exact hagain old other
  · rw [merged, lookup_insert hkey h, if_neg heq, merged]

/-- **A list of inserts** whose rows have keys of their own: each leaves its merged row, and the other rows stay. -/
theorem mem_insertAll_iff (hself : ∀ new, update new new = new)
    (hagain : ∀ old new, update (update old new) new = update old new) {rows news : List ρ} (h : (rows.map key).Nodup)
    (hown : ∀ m ∈ news, ∀ n ∈ news, key m = key n → m = n) {z : ρ} :
    z ∈ insertAll key update news rows ↔
      (∃ n ∈ news, z = merged key update n rows) ∨ (z ∈ rows ∧ ∀ n ∈ news, key z ≠ key n) := by
  induction news generalizing rows with
  | nil => simp [insertAll]
  | cons new news ih =>
    have hmerged : ∀ n ∈ news, merged key update n (insert key update new rows) = merged key update n rows := by
      intro n hn
      exact merged_insert hkey hself hagain h (hown n (List.mem_cons_of_mem new hn) new List.mem_cons_self)
    have hrest := ih (nodup_insert hkey h new)
      fun m hm n hn => hown m (List.mem_cons_of_mem new hm) n (List.mem_cons_of_mem new hn)
    rw [insertAll, List.foldl_cons]
    refine hrest.trans ?_
    rw [mem_insert_iff hkey h]
    constructor
    · rintro (⟨n, hn, rfl⟩ | ⟨rfl | ⟨hz, hne⟩, hnone⟩)
      · exact Or.inl ⟨n, List.mem_cons_of_mem new hn, hmerged n hn⟩
      · exact Or.inl ⟨new, List.mem_cons_self, rfl⟩
      · refine Or.inr ⟨hz, fun n hn => ?_⟩
        rcases List.mem_cons.1 hn with rfl | hn
        · exact hne
        · exact hnone n hn
    · rintro (⟨n, hn, rfl⟩ | ⟨hz, hnone⟩)
      · rcases List.mem_cons.1 hn with rfl | hn
        · -- a later insert of the same key is one of the same row
          by_cases hlater : ∃ m ∈ news, key m = key n
          · obtain ⟨m, hm, hk⟩ := hlater
            obtain rfl := hown m (List.mem_cons_of_mem n hm) n List.mem_cons_self hk
            exact Or.inl ⟨m, hm, (hmerged m hm).symm⟩
          · refine Or.inr ⟨Or.inl rfl, fun m hm hk => hlater ⟨m, hm, ?_⟩⟩
            rw [← hk, key_merged hkey]
        · exact Or.inl ⟨n, hn, (hmerged n hn).symm⟩
      · exact Or.inr ⟨Or.inr ⟨hz, hnone new List.mem_cons_self⟩, fun n hn => hnone n (List.mem_cons_of_mem new hn)⟩

end Laws

end Table

/-- how the items `α` of an owner `ι` are kept in rows `ρ` with keys `κ`; `τ` is what else a row is made from -/
structure Layout (τ ι α ρ κ : Type*) where
  key : ρ → κ
  update : ρ → ρ → ρ
  owner : ρ → ι
  row : τ → ι → α → ρ
  read : ρ → α
  keyOf : ι → α → κ
  /-- a new row can hold the item -/
  Fits : τ → ι → α → Prop
  /-- the columns that an update leaves alone are those of the item -/
  Settled : ρ → α → Prop
  key_update : ∀ old new, key (update old new) = key old
  owner_update : ∀ old new, owner (update old new) = owner old
  update_self : ∀ new, update new new = new
  update_update : ∀ old new, update (update old new) new = update old new
  key_row : ∀ c i a, key (row c i a) = keyOf i a
  owner_row : ∀ c i a, owner (row c i a) = i
  key_eq : ∀ r, key r = keyOf (owner r) (read r)
  read_row : ∀ c i a, read (row c i a) = a ↔ Fits c i a
  read_update : ∀ c i a old, owner old = i → key old = keyOf i a → (read (update old (row c i a)) = a ↔ Settled old a)

namespace Layout

variable {τ ι α ρ κ : Type*} (L : Layout τ ι α ρ κ)

def items [DecidableEq ι] (rows : List ρ) (i : ι) : List α :=
  (rows.filter fun r => decide (L.owner r = i)).map L.read

theorem mem_items [DecidableEq ι] {rows : List ρ} {i : ι} {a : α} :
    a ∈ L.items rows i ↔ ∃ r ∈ rows, L.owner r = i ∧ L.read r = a := by
  simp [items, and_assoc]

variable [DecidableEq κ]

/-- the write, with what the database and the program check of each row -/
def tryWrite (check : List ρ → ρ → Bool) (c : τ) (i : ι) (saved : List α) (rows : List ρ) : Option (List ρ) :=
  Table.tryInsertAll L.key L.update check (saved.map (L.row c i)) rows

def write (c : τ) (i : ι) (saved : List α) (rows : List ρ) : List ρ :=
  Table.insertAll L.key L.update (saved.map (L.row c i)) rows

/-- the write of one item leaves it readable -/
def KeepsItem (c : τ) (i : ι) (rows : List ρ) (a : α) : Prop :=
  match Table.lookup L.key (L.keyOf i a) rows with
  | some old => L.owner old = i ∧ L.Settled old a
  | none => L.Fits c i a

/-- the write leaves the items readable, and no others of the owner -/
structure Keeps (c : τ) (i : ι) (saved : List α) (rows : List ρ) : Prop where
  own : ∀ a ∈ saved, ∀ b ∈ saved, L.keyOf i a = L.keyOf i b → a = b
  item : ∀ a ∈ saved, L.KeepsItem c i rows a
  none_left : ∀ r ∈ rows, L.owner r = i → ∃ a ∈ saved, L.keyOf i a = L.key r

/-- the second item is read from a row of the first one's key, in which the columns that an update writes are the first's -/
def Refreshed (c : τ) (i : ι) (a a' : α) : Prop :=
  ∃ r, L.owner r = i ∧ L.key r = L.keyOf i a ∧ L.update r (L.row c i a) = r ∧ L.read r = a'

/-- what is returned after a write: every item as far as an update writes it, and just the items where the write keeps them -/
structure Returns (c : τ) (i : ι) (saved : List α) (rows : List ρ) (returned : List α) : Prop where
  refreshed : (∀ a ∈ saved, ∀ b ∈ saved, L.keyOf i a = L.keyOf i b → a = b) →
    ∀ a ∈ saved, ∃ a' ∈ returned, L.Refreshed c i a a'
  exact_of_keeps : L.Keeps c i saved rows → ∀ a, a ∈ returned ↔ a ∈ saved

variable {L}

theorem nodup_write {rows : List ρ} (h : (rows.map L.key).Nodup) (c : τ) (i : ι) (saved : List α) :
    ((L.write c i saved rows).map L.key).Nodup :=
  Table.nodup_insertAll L.key_update h _

/-- the merged row of an item is the owner's and reads as the item, exactly when the write keeps it -/
theorem merged_iff (c : τ) (i : ι) (a : α) (rows : List ρ) :
    (L.owner (Table.merged L.key L.update (L.row c i a) rows) = i ∧
      L.read (Table.merged L.key L.update (L.row c i a) rows) = a) ↔ L.KeepsItem c i rows a := by
  unfold KeepsItem Table.merged
  rw [L.key_row]
  cases hl : Table.lookup L.key (L.keyOf i a) rows with
  | none => simp [L.owner_row, L.read_row]
  | some old =>
    have hk : L.key old = L.keyOf i a := by simpa using List.find?_some hl
    simp only [L.owner_update]
    constructor
    · rintro ⟨ho, hr⟩
      exact ⟨ho, (L.read_update c i a old ho hk).1 hr⟩
    · rintro ⟨ho, hs⟩
      exact ⟨ho, (L.read_update c i a old ho hk).2 hs⟩

/-- the rows after a write of items with keys of their own -/
theorem mem_write_iff {rows : List ρ} (h : (rows.map L.key).Nodup) {c : τ} {i : ι} {saved : List α}
    (hown : ∀ a ∈ saved, ∀ b ∈ saved, L.keyOf i a = L.keyOf i b → a = b) {z : ρ} :
    z ∈ L.write c i saved rows ↔
      (∃ a ∈ saved, z = Table.merged L.key L.update (L.row c i a) rows) ∨
        (z ∈ rows ∧ ∀ a ∈ saved, L.key z ≠ L.keyOf i a) := by
  have hrows : ∀ m ∈ saved.map (L.row c i), ∀ n ∈ saved.map (L.row c i), L.key m = L.key n → m = n := by
    simp only [List.mem_map]
    rintro m ⟨a, ha, rfl⟩ n ⟨b, hb, rfl⟩ hk
    rw [L.key_row, L.key_row] at hk
    rw [hown a ha b hb hk]
  unfold write
  rw [Table.mem_insertAll_iff L.key_update L.update_self L.update_update h hrows]
  simp [L.key_row]

/-- a write that keeps its items leaves them to be read -/
theorem Keeps.mem_items_iff [DecidableEq ι] {rows : List ρ} (h : (rows.map L.key).Nodup) {c : τ} {i : ι} {saved : List α}
    (hkeeps : L.Keeps c i saved rows) (a : α) : a ∈ L.items (L.write c i saved rows) i ↔ a ∈ saved := by
  rw [L.mem_items]
  constructor
  · rintro ⟨z, hz, ho, rfl⟩
    rcases (mem_write_iff h hkeeps.own).1 hz with ⟨b, hb, rfl⟩ | ⟨hrows, hnone⟩
    · rwa [((merged_iff c i b rows).2 (hkeeps.item b hb)).2]
    · obtain ⟨b, hb, hk⟩ := hkeeps.none_left z hrows ho
      exact absurd hk.symm (hnone b hb)
  · intro ha
    obtain ⟨ho, hr⟩ := (merged_iff c i a rows).2 (hkeeps.item a ha)
    exact ⟨_, (mem_write_iff h hkeeps.own).2 (Or.inl ⟨a, ha, rfl⟩), ho, hr⟩

/-- the merged row of an item -/
theorem merged_row (c : τ) (i : ι) (a : α) (rows : List ρ) :
    L.update (Table.merged L.key L.update (L.row c i a) rows) (L.row c i a) =
      Table.merged L.key L.update (L.row c i a) rows := by
  unfold Table.merged
  cases Table.lookup L.key (L.key (L.row c i a)) rows with
  | none => exact L.update_self _
  | some old => exact L.update_update old _

theorem owner_merged {rows : List ρ} {i : ι} (h : ∀ r ∈ rows, L.owner r = i) (c : τ) (a : α) :
    L.owner (Table.merged L.key L.update (L.row c i a) rows) = i := by
  unfold Table.merged
  cases hl : Table.lookup L.key (L.key (L.row c i a)) rows with
  | none => exact L.owner_row c i a
  | some old =>
    have hold : old ∈ rows := List.mem_of_find?_eq_some hl
    exact (L.owner_update old _).trans (h old hold)

/-- a table of one owner stays so -/
theorem owner_write {rows : List ρ} {c : τ} {i : ι} {saved : List α} (h : ∀ r ∈ rows, L.owner r = i) :
    ∀ r ∈ L.write c i saved rows, L.owner r = i := by
  unfold write Table.insertAll
  induction saved generalizing rows with
  | nil => exact h
  | cons a saved ih =>
    apply ih
    intro r hr
    have hr : r ∈ Table.insert L.key L.update (L.row c i a) rows := hr
    rw [Table.insert_eq_upsert] at hr
    rcases mem_of_mem_upsert hr with rfl | hold
    · exact owner_merged h c a
    · exact h r hold

/-- **What is returned after a write** to a table of one owner. -/
theorem returns_write [DecidableEq ι] {rows : List ρ} (hnodup : (rows.map L.key).Nodup) {i : ι}
    (h : ∀ r ∈ rows, L.owner r = i) (c : τ) (saved : List α) :
    L.Returns c i saved rows (L.items (L.write c i saved rows) i) where
  refreshed hown a ha := by
    have howner := owner_merged h c a
    have hkey := Table.key_merged L.key_update (L.row c i a) rows
    rw [L.key_row] at hkey
    have hmem : Table.merged L.key L.update (L.row c i a) rows ∈ L.write c i saved rows :=
      (mem_write_iff hnodup hown).2 (Or.inl ⟨a, ha, rfl⟩)
    exact ⟨_, L.mem_items.2 ⟨_, hmem, howner, rfl⟩, _, howner, hkey, merged_row c i a rows, rfl⟩
  exact_of_keeps hkeeps := hkeeps.mem_items_iff hnodup

end Layout

end ObsChain
