/-! Values by name, in the order in which the names came. -/

namespace Concordance

/-- Named values. Built by `put`, each name stands once. -/
abbrev Named (α : Type) := List (String × α)

namespace Named

variable {α : Type}

def names (t : Named α) : List String := t.map Prod.fst

def get? : Named α → String → Option α
  | [], _ => none
  | (other, value) :: rest, name => if other = name then some value else get? rest name

/-- A value under a name: in the place of the one that had the name, or behind all others. -/
def put (name : String) (value : α) : Named α → Named α
  | [] => [(name, value)]
  | (other, old) :: rest =>
    if other = name then (name, value) :: rest else (other, old) :: put name value rest

def without (names : List String) : Named α → Named α
  | [] => []
  | (here, value) :: rest =>
    if here ∈ names then without names rest else (here, value) :: without names rest

@[simp] theorem get?_put (t : Named α) (name other : String) (value : α) :
    (t.put name value).get? other = if name = other then some value else t.get? other := by
  induction t with
  | nil => simp [put, get?]
  | cons entry rest ih =>
    obtain ⟨here, old⟩ := entry
    by_cases h : here = name
    · subst h
      by_cases h' : here = other <;> simp [put, get?, h']
    · by_cases h' : here = other
      · subst h'
        simp [put, get?, h, Ne.symm h]
      · simp [put, get?, h, h', ih]

theorem names_put (t : Named α) (name : String) (value : α) :
    (t.put name value).names = if name ∈ t.names then t.names else t.names ++ [name] := by
  induction t with
  | nil => simp [put, names]
  | cons entry rest ih =>
    obtain ⟨here, old⟩ := entry
    by_cases h : here = name
    · subst h
      simp [put, names]
    · have h' : name ≠ here := fun e => h e.symm
      simp only [names] at ih ⊢
      by_cases hn : name ∈ rest.map Prod.fst <;> simp [put, h, h', hn, ih]

theorem put_of_not_mem (t : Named α) {name : String} (h : name ∉ t.names) (value : α) :
    t.put name value = t ++ [(name, value)] := by
  induction t with
  | nil => rfl
  | cons entry rest ih =>
    obtain ⟨here, old⟩ := entry
    obtain ⟨hhere, hrest⟩ := not_or.mp (mt List.mem_cons.mpr h)
    rw [put, if_neg (Ne.symm hhere), ih hrest, List.cons_append]

theorem mem_put {t : Named α} {name : String} {value : α} {entry : String × α}
    (h : entry ∈ t.put name value) : entry = (name, value) ∨ entry ∈ t := by
  induction t with
  | nil => exact .inl (List.mem_singleton.mp h)
  | cons first rest ih =>
    obtain ⟨here, old⟩ := first
    rw [put] at h
    split at h
    · exact (List.mem_cons.mp h).imp_right (List.mem_cons_of_mem _)
    · rcases List.mem_cons.mp h with rfl | hrest
      · exact .inr List.mem_cons_self
      · exact (ih hrest).imp_right (List.mem_cons_of_mem _)

theorem nodup_names_put {t : Named α} (h : t.names.Nodup) (name : String) (value : α) :
    (t.put name value).names.Nodup := by
  rw [names_put]
  split
  · exact h
  · rw [List.nodup_append]
    refine ⟨h, List.nodup_cons.mpr ⟨List.not_mem_nil, List.nodup_nil⟩, ?_⟩
    rintro _ hmem _ hlast rfl
    cases List.mem_singleton.mp hlast
    contradiction

theorem mem_names_iff (t : Named α) (name : String) :
    name ∈ t.names ↔ (t.get? name).isSome = true := by
  induction t with
  | nil => simp [names, get?]
  | cons entry rest ih =>
    obtain ⟨here, value⟩ := entry
    simp only [names] at ih
    by_cases h : here = name
    · simp [names, get?, h]
    · simp [names, get?, h, Ne.symm h, ih]

theorem without_sublist (t : Named α) (names : List String) :
    (t.without names).Sublist t := by
  induction t with
  | nil => exact .slnil
  | cons entry rest ih =>
    rw [without]
    split
    · exact ih.cons _
    · exact ih.cons_cons _

@[simp] theorem get?_without (t : Named α) (names : List String) (name : String) :
    (t.without names).get? name = if name ∈ names then none else t.get? name := by
  induction t with
  | nil => simp [without, get?]
  | cons entry rest ih =>
    obtain ⟨here, old⟩ := entry
    by_cases h : here = name
    · subst h
      by_cases hm : here ∈ names <;> simp [without, get?, hm, ih]
    · by_cases hm : here ∈ names <;> simp [without, get?, hm, h, ih]

end Named
end Concordance
