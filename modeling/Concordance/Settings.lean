import Concordance.Named

/-! Settings by name, with defaults for those that are missing or null. -/

namespace Concordance

/-- Named values, null being none. -/
abbrev Settings (α : Type) := Named (Option α)

namespace Settings

variable {α : Type}

def value? (settings : Settings α) (name : String) : Option α := (settings.get? name).join

def setDefault (settings : Settings α) (name : String) (value : Option α) : Settings α :=
  if (settings.value? name).isSome then settings else settings.put name value

def withDefaults (settings : Settings α) (defaults : Settings α) : Settings α :=
  defaults.foldl (fun settings (name, value) => settings.setDefault name value) settings

theorem value?_setDefault (settings : Settings α) (name other : String) (value : Option α) :
    (settings.setDefault name value).value? other =
      if name = other then (settings.value? name).or value else settings.value? other := by
  unfold setDefault
  cases hv : settings.value? name with
  | some present =>
    rw [Option.isSome_some, if_pos rfl, Option.some_or]
    split
    · rename_i h
      rw [← h, hv]
    · rfl
  | none =>
    rw [Option.isSome_none, if_neg Bool.false_ne_true, Option.none_or, value?, Named.get?_put]
    split
    · rfl
    · rfl

end Settings
end Concordance
