import Risclet.Proofs.Outcome
import Risclet.Table

/-! # More on tables

Membership of names and entries, tables whose values are all changed by one function, and tables
that begin alike: what is set in the common part is set in both, and what is set behind it leaves it
alone (`setEntry_append`).
-/
namespace Risclet
namespace Table

variable {α β ε : Type}

theorem contains_eq_true {t : Table α} {name : String} :
    t.contains name = true ↔ ∃ value, t.get? name = some value :=
  Option.isSome_iff_exists

theorem contains_eq_false {t : Table α} {name : String} :
    t.contains name = false ↔ t.get? name = none :=
  Option.isSome_eq_false_iff.trans Option.isNone_iff_eq_none

theorem mem_entries_of_get? {t : Table α} {name : String} {value : α}
    (h : t.get? name = some value) : (name, value) ∈ t.entries := by
  obtain ⟨entries⟩ := t
  simp only [get?] at h
  induction entries with
  | nil => cases h
  | cons e rest ih =>
    rw [List.lookup_cons] at h
    split at h
    · next hk =>
      cases h
      rw [eq_of_beq hk]
      exact List.mem_cons_self
    · exact List.mem_cons_of_mem _ (ih h)

theorem contains_iff_mem_keys {t : Table α} {name : String} :
    t.contains name = true ↔ name ∈ t.keys := by
  rw [contains, get?, List.lookup_isSome_iff, keys, List.mem_map]
  constructor
  · rintro ⟨e, he, hk⟩
    exact ⟨e, he, (eq_of_beq hk).symm⟩
  · rintro ⟨e, he, rfl⟩
    exact ⟨e, he, beq_self_eq_true _⟩

/-- An entry of a table in which a name was set is an old one, or the one that was set. -/
theorem mem_entries_set {t : Table α} {name : String} {value : α} {e : String × α}
    (h : e ∈ (t.set name value).entries) : e ∈ t.entries ∨ e = (name, value) := by
  obtain ⟨entries⟩ := t
  simp only [set] at h
  induction entries with
  | nil => exact .inr (by simpa [setEntry] using h)
  | cons first rest ih =>
    obtain ⟨key, old⟩ := first
    rw [setEntry] at h
    split at h
    · next hk =>
      rcases List.mem_cons.mp h with rfl | h
      · exact .inr (by rw [hk])
      · exact .inl (List.mem_cons_of_mem _ h)
    · rcases List.mem_cons.mp h with rfl | h
      · exact .inl List.mem_cons_self
      · exact (ih h).imp_left (List.mem_cons_of_mem _)

/-- Where names are entered once, every entry is found. -/
theorem get?_of_mem_entries {t : Table α} {name : String} {value : α} (hn : t.keys.Nodup)
    (h : (name, value) ∈ t.entries) : t.get? name = some value := by
  obtain ⟨entries⟩ := t
  simp only [get?, keys] at hn ⊢
  induction entries with
  | nil => cases h
  | cons e rest ih =>
    rw [List.map_cons, List.nodup_cons] at hn
    rcases List.mem_cons.mp h with rfl | h
    · simp
    · have hne : name ≠ e.1 := by
        rintro rfl
        exact hn.1 (List.mem_map.mpr ⟨_, h, rfl⟩)
      rw [List.lookup_cons, beq_eq_false_iff_ne.mpr hne]
      exact ih hn.2 h

/-- Tables with the same names in the same order and the same values are the same. -/
theorem ext_get? {t u : Table α} (hn : t.keys.Nodup) (hkeys : t.keys = u.keys)
    (hget : ∀ name ∈ t.keys, t.get? name = u.get? name) : t = u := by
  have hentries : ∀ w : Table α, w.keys.Nodup →
      w.entries.map (fun e => (e.1, some e.2)) = w.keys.map (fun key => (key, w.get? key)) := by
    intro w hw
    rw [keys, List.map_map]
    refine List.map_congr_left fun e he => ?_
    simp [get?_of_mem_entries hw he]
  have hall : t.entries.map (fun e => (e.1, some e.2)) =
      u.entries.map (fun e => (e.1, some e.2)) := by
    rw [hentries t hn, hentries u (hkeys ▸ hn), ← hkeys]
    exact List.map_congr_left fun key hk => by rw [hget key hk]
  have hsame : t.entries = u.entries :=
    (List.map_inj_right fun _ _ he => by simpa [Prod.ext_iff] using he).mp hall
  exact congrArg Table.mk hsame

theorem nodup_keys_set {t : Table α} (hn : t.keys.Nodup) (name : String) (value : α) :
    (t.set name value).keys.Nodup := by
  rw [keys_set]
  split
  · exact hn
  · next hmem =>
    refine List.nodup_append.mpr ⟨hn, by simp, ?_⟩
    rintro a ha b hb rfl
    exact hmem (List.mem_singleton.mp hb ▸ ha)

/-- The table with a function applied to every value. -/
def mapValues (f : α → β) (t : Table α) : Table β :=
  ⟨t.entries.map (fun e => (e.1, f e.2))⟩

@[simp] theorem get?_mapValues (f : α → β) (t : Table α) (name : String) :
    (t.mapValues f).get? name = (t.get? name).map f := by
  obtain ⟨entries⟩ := t
  simp only [mapValues, get?]
  induction entries with
  | nil => rfl
  | cons e rest ih =>
    rw [List.map_cons, List.lookup_cons, List.lookup_cons, ih]
    cases name == e.1 <;> rfl

@[simp] theorem keys_mapValues (f : α → β) (t : Table α) : (t.mapValues f).keys = t.keys := by
  simp [keys, mapValues]

/-- Where a function that can fail does not, `mapM` is `mapValues`; it succeeds nowhere else. -/
theorem mapM_eq_ok {f : α → Except ε β} {g : α → β} (hg : ∀ a b, f a = .ok b → b = g a)
    {t : Table α} {u : Table β} :
    t.mapM f = .ok u ↔ (∀ e ∈ t.entries, f e.2 = .ok (g e.2)) ∧ u = t.mapValues g := by
  obtain ⟨entries⟩ := t
  obtain ⟨others⟩ := u
  simp only [mapM, mapValues, Outcome.map_eq_ok, Table.mk.injEq, exists_eq_right]
  induction entries generalizing others with
  | nil => simp [mapM.go, eq_comm]
  | cons e rest ih =>
    obtain ⟨name, value⟩ := e
    constructor
    · intro h
      obtain ⟨b, hb, h⟩ := Outcome.bind_eq_ok.mp h
      obtain ⟨bs, hbs, h⟩ := Outcome.bind_eq_ok.mp h
      obtain rfl := hg value b hb
      obtain ⟨hall, rfl⟩ := (ih bs).mp hbs
      cases h
      exact ⟨List.forall_mem_cons.mpr ⟨hb, hall⟩, rfl⟩
    · rintro ⟨hall, rfl⟩
      obtain ⟨hv, hrest⟩ := List.forall_mem_cons.mp hall
      rw [mapM.go, hv, (ih _).mpr ⟨hrest, rfl⟩]
      rfl

/-! ## Tables that begin alike -/

/-- A name is set in its first place, so entries behind that place have no influence. -/
theorem setEntry_append (name : String) (value : α) (front rest : List (String × α)) :
    setEntry name value (front ++ rest) =
      if name ∈ front.map Prod.fst then setEntry name value front ++ rest
      else front ++ setEntry name value rest := by
  induction front with
  | nil => simp
  | cons e front ih =>
    obtain ⟨key, old⟩ := e
    by_cases hk : key = name
    · simp [setEntry, hk]
    · have hne : name ≠ key := fun h => hk h.symm
      by_cases hm : name ∈ front.map Prod.fst <;> simp [setEntry, hk, hne, hm, ih]

section Prefixes
variable {t u : Table α} {name : String} {front : List (String × α)}

theorem get?_of_isPrefix (h : t.entries <+: u.entries) (hname : name ∈ t.keys) :
    u.get? name = t.get? name := by
  obtain ⟨rest, hrest⟩ := h
  have hsome : (t.entries.lookup name).isSome := contains_iff_mem_keys.mpr hname
  rw [get?, ← hrest, List.lookup_append, Option.or_of_isSome hsome]
  rfl

theorem entries_set_isPrefix (h : t.entries <+: u.entries) (hname : name ∈ t.keys) (value : α) :
    (t.set name value).entries <+: (u.set name value).entries := by
  obtain ⟨rest, hrest⟩ := h
  rw [keys] at hname
  exact ⟨rest, by rw [set, set, ← hrest, setEntry_append, if_pos hname]⟩

theorem isPrefix_entries_set (h : front <+: u.entries) (hname : name ∉ front.map Prod.fst)
    (value : α) : front <+: (u.set name value).entries := by
  obtain ⟨rest, hrest⟩ := h
  rw [set, ← hrest, setEntry_append, if_neg hname]
  exact List.prefix_append _ _

end Prefixes

end Table
end Risclet
