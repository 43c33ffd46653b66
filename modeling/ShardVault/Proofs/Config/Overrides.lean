import Mathlib.Data.List.Induction
import ShardVault.Config.Environment
import ShardVault.Proofs.Entries

namespace ShardVault

variable {environment environment' : Environment} {lead name key : Text}

def leading (lead : Text) : Text :=
  lead.upper ++ ("_" : Text)

def mappedKey (lead name : Text) : Text :=
  pointForLines [] (Text.lower (name.drop (leading lead).length))

theorem overriddenKey?_eq (lead name : Text) : overriddenKey? lead name =
    if leading lead <+: name then
      if isSensitive (mappedKey lead name) then none else some (mappedKey lead name)
    else none := by
  simp only [← List.isPrefixOf_iff_prefix]
  rfl

theorem overriddenKey?_eq_some_iff : overriddenKey? lead name = some key ↔
    leading lead <+: name ∧ mappedKey lead name = key ∧ isSensitive key = false := by
  rw [overriddenKey?_eq]
  split
  · next starts =>
    rw [and_iff_right starts]
    split
    · next sensitive =>
      refine iff_of_false nofun ?_
      rintro ⟨rfl, harmless⟩
      exact Bool.false_ne_true (harmless.symm.trans sensitive)
    · next harmless =>
      rw [Option.some.injEq]
      refine ⟨?_, And.left⟩
      rintro rfl
      exact ⟨rfl, Bool.eq_false_iff.2 harmless⟩
  · next other => exact iff_of_false nofun fun h ↦ other h.1

def lastValue? (environment : Environment) (lead key : Text) : Option Text :=
  (environment.filter fun p ↦ overriddenKey? lead p.1 == some key).getLast?.map (·.2)

theorem lastValue?_append (environment : Environment) (lead key : Text) (p : Text × Text) :
    lastValue? (environment ++ [p]) lead key =
      if overriddenKey? lead p.1 = some key then some p.2 else lastValue? environment lead key := by
  unfold lastValue?
  rw [List.filter_append]
  split
  · next overrides => simp [overrides]
  · next other => simp [other]

theorem overrides_append (environment : Environment) (lead : Text) (p : Text × Text) :
    overrides (environment ++ [p]) lead = match overriddenKey? lead p.1 with
      | some key => (overrides environment lead).put key p.2
      | none => overrides environment lead := by
  unfold overrides Entries.ofList
  rw [List.filterMap_append, List.foldl_append]
  cases h : overriddenKey? lead p.1 with
  | none => simp [h]
  | some key => simp [h]

theorem get?_overrides (environment : Environment) (lead key : Text) :
    (overrides environment lead).get? key = lastValue? environment lead key := by
  induction environment using List.reverseRecOn with
  | nil => rfl
  | append_singleton environment p ih =>
    rw [overrides_append, lastValue?_append, ← ih]
    cases overriddenKey? lead p.1 with
    | none => simp
    | some other => simp only [Entries.get?_put, Option.some.injEq, eq_comm]

namespace Config

def overridable : List Text :=
  ["paths.data_dir", "paths.log_dir", "crypto.chunk_size", "erasure.data_shards",
    "erasure.parity_shards", "logging.level", "logging.enable_console", "logging.enable_file",
    "logging.enable_json", "performance.max_workers"]

/-- A variable has the prefix, and its key does not sound secret and is that of a field. -/
def Counts (lead name : Text) : Prop :=
  leading lead <+: name ∧ isSensitive (mappedKey lead name) = false ∧
    mappedKey lead name ∈ overridable

instance (lead name : Text) : Decidable (Counts lead name) :=
  inferInstanceAs (Decidable (_ ∧ _ ∧ _))

theorem counts_of_overriddenKey? (h : overriddenKey? lead name = some key)
    (hk : key ∈ overridable) : Counts lead name := by
  obtain ⟨starts, rfl, harmless⟩ := overriddenKey?_eq_some_iff.1 h
  exact ⟨starts, harmless, hk⟩

theorem lastValue?_congr
    (h : environment'.filter (fun p ↦ Counts lead p.1) = environment.filter fun p ↦ Counts lead p.1)
    (hk : key ∈ overridable) :
    lastValue? environment' lead key = lastValue? environment lead key := by
  have among (entries : Environment) :
      (entries.filter fun p ↦ overriddenKey? lead p.1 == some key) =
        (entries.filter fun p ↦ Counts lead p.1).filter fun p ↦
          overriddenKey? lead p.1 == some key := by
    rw [List.filter_filter]
    apply List.filter_congr
    intro p _
    cases overridden : overriddenKey? lead p.1 == some key with
    | false => rfl
    | true => simp [counts_of_overriddenKey? (beq_iff_eq.1 overridden) hk]
  rw [lastValue?, lastValue?, among, among environment, h]

end Config

end ShardVault
