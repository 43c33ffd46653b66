import Mathlib.Data.Set.Card
import ShardVault.Proofs.Entries
import ShardVault.Store.Lock

namespace ShardVault.KeyedLocks

/-- A user registers for a key, or takes itself off, however what it did there has ended. -/
inductive Visit where
  | enter (user : Nat) (key : Text)
  | leave (user : Nat) (key : Text)
  deriving DecidableEq

def visit (l : KeyedLocks) : Visit → KeyedLocks
  | .enter _ key => (l.enter key).2
  | .leave _ key => l.leave key

def after (past : List Visit) : KeyedLocks :=
  past.foldl visit empty

/-- Every user comes once, and leaves the key that it has come to once at most. -/
inductive Orderly : List Visit → Prop where
  | nil : Orderly []
  | enter {past : List Visit} {user : Nat} (h : Orderly past)
      (new : ∀ key, .enter user key ∉ past) (key : Text) : Orderly (past ++ [.enter user key])
  | leave {past : List Visit} {user : Nat} {key : Text} (h : Orderly past)
      (came : .enter user key ∈ past) (stays : .leave user key ∉ past) :
      Orderly (past ++ [.leave user key])

def users (past : List Visit) (key : Text) : Set Nat :=
  {user | .enter user key ∈ past ∧ .leave user key ∉ past}

def Handed (past : List Visit) (user : Nat) (key : Text) (lock : Nat) : Prop :=
  ∃ before, before ++ [.enter user key] <+: past ∧ ((after before).enter key).1 = lock

def Together (past : List Visit) (key : Text) (user other : Nat) : Prop :=
  ∃ now, now <+: past ∧ user ∈ users now key ∧ other ∈ users now key

variable {past : List Visit} {l : KeyedLocks} {v : Visit} {user other lock : Nat} {key k : Text}

theorem enter_of_some {entry : Nat × Nat} (found : l.held.get? key = some entry) :
    l.enter key = (entry.1, { l with held := l.held.put key (entry.1, entry.2 + 1) }) := by
  rw [enter, found]

theorem enter_of_none (missing : l.held.get? key = none) :
    l.enter key = (l.next, ⟨l.next + 1, l.held.put key (l.next, 1)⟩) := by
  rw [enter, missing]

theorem held_enter (l : KeyedLocks) (key k : Text) :
    (l.enter key).2.held.get? k =
      if k = key then some ((l.enter key).1, ((l.held.get? key).map (·.2)).getD 0 + 1)
      else l.held.get? k := by
  cases found : l.held.get? key with
  | none => rw [enter_of_none found, Entries.get?_put, Option.map_none, Option.getD_none]
  | some entry =>
    rw [enter_of_some found, Entries.get?_put, Option.map_some, Option.getD_some]

theorem next_le_enter (l : KeyedLocks) (key : Text) : l.next ≤ (l.enter key).2.next := by
  cases found : l.held.get? key with
  | none =>
    rw [enter_of_none found]
    exact Nat.le_succ _
  | some entry => rw [enter_of_some found]

theorem held_leave {entry : Nat × Nat} (found : l.held.get? key = some entry) (k : Text) :
    (l.leave key).held.get? k =
      if k = key then if entry.2 = 1 then none else some (entry.1, entry.2 - 1)
      else l.held.get? k := by
  rw [leave, found]
  by_cases last : entry.2 = 1
  · simp only [if_pos last, Entries.get?_erase]
  · simp only [if_neg last, Entries.get?_put]

theorem next_leave (l : KeyedLocks) (key : Text) : (l.leave key).next = l.next := by
  rw [leave]
  split
  · split
    · rfl
    · rfl
  · rfl

theorem nodup_keys_visit (distinct : l.held.keys.Nodup) (v : Visit) :
    (l.visit v).held.keys.Nodup := by
  cases v with
  | enter user key =>
    rw [visit, enter]
    split
    · exact Entries.nodup_keys_put distinct _ _
    · exact Entries.nodup_keys_put distinct _ _
  | leave user key =>
    rw [visit, leave]
    split
    · split
      · exact Entries.nodup_keys_erase distinct _
      · exact Entries.nodup_keys_put distinct _ _
    · exact distinct

theorem after_append (past : List Visit) (v : Visit) :
    after (past ++ [v]) = (after past).visit v :=
  List.foldl_append

theorem handed_append : Handed (past ++ [v]) user key lock ↔
    Handed past user key lock ∨ v = .enter user key ∧ ((after past).enter key).1 = lock := by
  constructor
  · rintro ⟨before, early, given⟩
    rcases List.prefix_concat_iff.1 early with now | early
    · obtain ⟨rfl, last⟩ := List.append_inj' now rfl
      exact .inr ⟨(List.singleton_inj.1 last).symm, given⟩
    · exact .inl ⟨before, early, given⟩
  · rintro (⟨before, early, given⟩ | ⟨rfl, given⟩)
    · exact ⟨before, early.trans (List.prefix_append _ _), given⟩
    · exact ⟨past, List.prefix_rfl, given⟩

theorem Handed.mem (h : Handed past user key lock) : .enter user key ∈ past := by
  obtain ⟨before, early, -⟩ := h
  exact early.subset (List.mem_append_right _ (List.mem_singleton_self _))

theorem exists_handed (came : .enter user key ∈ past) : ∃ lock, Handed past user key lock := by
  obtain ⟨before, rest, rfl⟩ := List.append_of_mem came
  exact ⟨_, before, ⟨rest, by simp⟩, rfl⟩

theorem finite_users (past : List Visit) (key : Text) : (users past key).Finite := by
  have injective : Function.Injective fun user ↦ Visit.enter user key := by
    intro user other same
    exact (Visit.enter.inj same).1
  have known := past.finite_toSet.preimage injective.injOn
  exact known.subset fun user there ↦ there.1

namespace Orderly

theorem of_prefix {before : List Visit} (h : Orderly past) (early : before <+: past) :
    Orderly before := by
  induction h with
  | nil =>
    rw [List.prefix_nil.1 early]
    exact .nil
  | enter h new key ih =>
    rcases List.prefix_concat_iff.1 early with rfl | early
    · exact h.enter new key
    · exact ih early
  | leave h came stays ih =>
    rcases List.prefix_concat_iff.1 early with rfl | early
    · exact h.leave came stays
    · exact ih early

theorem mem_users_of_leave (h : Orderly (past ++ [.leave user key])) : user ∈ users past key := by
  generalize whole : past ++ [.leave user key] = all at h
  cases h with
  | nil => simp at whole
  | enter h new other => cases (List.append_inj' whole rfl).2
  | leave h came stays =>
    obtain ⟨rfl, last⟩ := List.append_inj' whole rfl
    obtain ⟨rfl, rfl⟩ := Visit.leave.inj (List.singleton_inj.1 last)
    exact ⟨came, stays⟩

theorem enter_mem_of_leave (h : Orderly past) (left : .leave user key ∈ past) :
    .enter user key ∈ past := by
  induction h with
  | nil => cases left
  | enter h new other ih =>
    have before := (List.mem_append.1 left).resolve_right (by simp)
    exact List.mem_append_left _ (ih before)
  | leave h came stays ih =>
    apply List.mem_append_left
    rcases List.mem_append.1 left with before | now
    · exact ih before
    · obtain ⟨rfl, rfl⟩ := Visit.leave.inj (List.mem_singleton.1 now)
      exact came

theorem users_enter (h : Orderly past) (new : ∀ key, .enter user key ∉ past) (key k : Text) :
    users (past ++ [.enter user key]) k =
      if k = key then insert user (users past key) else users past k := by
  have neverLeft : .leave user key ∉ past := fun left ↦ new key (h.enter_mem_of_leave left)
  split
  · next same =>
    subst same
    ext other
    simp only [users, Set.mem_ofPred_eq, Set.mem_insert_iff, List.mem_append, List.mem_singleton,
      Visit.enter.injEq, reduceCtorEq, or_false, and_true]
    constructor
    · rintro ⟨came | rfl, stays⟩
      · exact .inr ⟨came, stays⟩
      · exact .inl rfl
    · rintro (rfl | ⟨came, stays⟩)
      · exact ⟨.inr rfl, neverLeft⟩
      · exact ⟨.inl came, stays⟩
  · next apart =>
    ext other
    simp [users, apart]

end Orderly

theorem users_leave (past : List Visit) (user : Nat) (key k : Text) :
    users (past ++ [.leave user key]) k =
      if k = key then users past key \ {user} else users past k := by
  split
  · next same =>
    subst same
    ext other
    simp [users, not_or, and_assoc]
  · next apart =>
    ext other
    simp [users, apart]

structure Tracks (past : List Visit) : Prop where
  distinct : (after past).held.keys.Nodup
  counted : ∀ key, ((after past).held.get? key).map (·.2) =
    if (users past key).ncard = 0 then none else some (users past key).ncard
  shared : ∀ key entry user lock, (after past).held.get? key = some entry →
    user ∈ users past key → Handed past user key lock → lock = entry.1
  numbered : ∀ user key lock, Handed past user key lock → lock < (after past).next
  own : ∀ user other key k lock, Handed past user key lock → Handed past other k lock → key = k

namespace Tracks

theorem nil : Tracks [] where
  distinct := List.nodup_nil
  counted := by
    intro key
    have nobody : users [] key = ∅ := by simp [users]
    rw [nobody, Set.ncard_empty, if_pos rfl]
    rfl
  shared := by
    intro key entry user lock found
    cases found
  numbered := fun user key lock given ↦ nomatch given.mem
  own := fun user other key k lock given ↦ nomatch given.mem

theorem count_eq (h : Tracks past) {entry : Nat × Nat}
    (found : (after past).held.get? key = some entry) :
    entry.2 = (users past key).ncard ∧ (users past key).Nonempty := by
  have count := h.counted key
  rw [found, Option.map_some] at count
  split at count
  · cases count
  · next some =>
    exact ⟨Option.some.inj count, Set.nonempty_of_ncard_ne_zero some⟩

theorem exists_entry (h : Tracks past) (there : user ∈ users past key) :
    ∃ entry, (after past).held.get? key = some entry := by
  have count := h.counted key
  rw [if_neg (Set.ncard_ne_zero_of_mem there (finite_users past key))] at count
  obtain ⟨entry, found, -⟩ := Option.map_eq_some_iff.1 count
  exact ⟨entry, found⟩

theorem exists_handed_entry (h : Tracks past) {entry : Nat × Nat}
    (found : (after past).held.get? key = some entry) :
    ∃ user, Handed past user key entry.1 := by
  obtain ⟨-, user, there⟩ := h.count_eq found
  obtain ⟨lock, given⟩ := exists_handed there.1
  exact ⟨user, h.shared _ _ _ _ found there given ▸ given⟩

theorem eq_enter (h : Tracks past) (there : user ∈ users past key)
    (given : Handed past user key lock) : lock = ((after past).enter key).1 := by
  obtain ⟨entry, found⟩ := h.exists_entry there
  rw [enter_of_some found]
  exact h.shared _ _ _ _ found there given

theorem key_eq_of_handed (h : Tracks past) (given : Handed past user k ((after past).enter key).1) :
    k = key := by
  cases found : (after past).held.get? key with
  | none =>
    rw [enter_of_none found] at given
    exact absurd (h.numbered _ _ _ given) (Nat.lt_irrefl _)
  | some entry =>
    rw [enter_of_some found] at given
    obtain ⟨other, own⟩ := h.exists_handed_entry found
    exact h.own _ _ _ _ _ given own

theorem enter_lt_next (h : Tracks past) (key : Text) :
    ((after past).enter key).1 < ((after past).enter key).2.next := by
  cases found : (after past).held.get? key with
  | none =>
    rw [enter_of_none found]
    exact Nat.lt_succ_self _
  | some entry =>
    obtain ⟨other, own⟩ := h.exists_handed_entry found
    rw [enter_of_some found]
    exact h.numbered _ _ _ own

theorem enter (h : Tracks past) (orderly : Orderly past) (new : ∀ key, .enter user key ∉ past)
    (key : Text) : Tracks (past ++ [.enter user key]) where
  distinct := by
    rw [after_append]
    exact nodup_keys_visit h.distinct _
  counted := by
    intro k
    rw [after_append, visit, held_enter, orderly.users_enter new]
    split
    · have outside : user ∉ users past key := fun there ↦ new key there.1
      rw [Set.ncard_insert_of_notMem outside (finite_users past key),
        if_neg (Nat.succ_ne_zero _), h.counted, Option.map_some]
      split
      · next nobody => rw [nobody, Option.getD_none]
      · rfl
    · exact h.counted k
  shared := by
    intro k entry other lock found there given
    rw [after_append, visit, held_enter] at found
    rw [orderly.users_enter new] at there
    split at found
    · next same =>
      subst same
      rw [if_pos rfl] at there
      obtain rfl := Option.some.inj found
      rcases handed_append.1 given with before | ⟨-, now⟩
      · rcases there with rfl | there
        · exact absurd before.mem (new k)
        · exact h.eq_enter there before
      · exact now.symm
    · next apart =>
      rw [if_neg apart] at there
      rcases handed_append.1 given with before | ⟨now, -⟩
      · exact h.shared _ _ _ _ found there before
      · exact absurd (Visit.enter.inj now).2.symm apart
  numbered := by
    intro other k lock given
    rw [after_append, visit]
    rcases handed_append.1 given with before | ⟨now, rfl⟩
    · exact Nat.lt_of_lt_of_le (h.numbered _ _ _ before) (next_le_enter _ _)
    · obtain ⟨rfl, rfl⟩ := Visit.enter.inj now
      exact h.enter_lt_next key
  own := by
    intro first second k k' lock given given'
    rcases handed_append.1 given with before | ⟨now, rfl⟩
    · rcases handed_append.1 given' with before' | ⟨now', rfl⟩
      · exact h.own _ _ _ _ _ before before'
      · exact h.key_eq_of_handed before
    · rcases handed_append.1 given' with before' | ⟨now', -⟩
      · exact (h.key_eq_of_handed before').symm
      · exact (Visit.enter.inj now).2.symm.trans (Visit.enter.inj now').2

theorem leave (h : Tracks past) (there : user ∈ users past key) :
    Tracks (past ++ [.leave user key]) := by
  obtain ⟨entry, found⟩ := h.exists_entry there
  have handed : ∀ {other k lock}, Handed (past ++ [.leave user key]) other k lock →
      Handed past other k lock := by
    intro other k lock given
    exact (handed_append.1 given).resolve_right fun now ↦ nomatch now.1
  have table : ∀ k, (after (past ++ [.leave user key])).held.get? k =
      if k = key then if entry.2 = 1 then none else some (entry.1, entry.2 - 1)
      else (after past).held.get? k := by
    intro k
    rw [after_append, visit, held_leave found]
  refine ⟨?_, fun k ↦ ?_, fun k entry' other lock found' there' given ↦ ?_,
    fun other k lock given ↦ ?_, fun first second k k' lock given given' ↦ ?_⟩
  · rw [after_append]
    exact nodup_keys_visit h.distinct _
  · rw [table, users_leave]
    split
    · have one := Set.ncard_sdiff_singleton_add_one there (finite_users past key)
      rw [(h.count_eq found).1]
      split
      · rw [if_pos (by omega), Option.map_none]
      · rw [if_neg (by omega), Option.map_some, ← one, Nat.add_sub_cancel]
    · exact h.counted k
  · rw [table] at found'
    rw [users_leave] at there'
    split at found'
    · next same =>
      subst same
      rw [if_pos rfl] at there'
      split at found'
      · cases found'
      · obtain rfl := Option.some.inj found'
        have same := h.shared _ _ _ _ found there'.1 (handed given)
        exact same
    · next apart =>
      rw [if_neg apart] at there'
      exact h.shared _ _ _ _ found' there' (handed given)
  · rw [after_append, visit, next_leave]
    exact h.numbered _ _ _ (handed given)
  · exact h.own _ _ _ _ _ (handed given) (handed given')

theorem mem_keys_iff (h : Tracks past) (key : Text) :
    key ∈ (after past).held.keys ↔ (users past key).Nonempty := by
  rw [Entries.mem_keys_iff]
  constructor
  · rintro ⟨entry, found⟩
    exact (h.count_eq found).2
  · rintro ⟨user, there⟩
    exact h.exists_entry there

theorem size_eq (h : Tracks past) :
    (after past).size = {key | (users past key).Nonempty}.ncard := by
  have keys : {key | (users past key).Nonempty} = ((after past).held.keys.toFinset : Set Text) := by
    ext key
    rw [Set.mem_ofPred_eq, Finset.mem_coe, List.mem_toFinset, h.mem_keys_iff]
  rw [keys, Set.ncard_coe_finset, List.toFinset_card_of_nodup h.distinct, Entries.keys,
    List.length_map, size]

end Tracks

theorem Orderly.tracks (h : Orderly past) : Tracks past := by
  induction h with
  | nil => exact .nil
  | enter h new key ih => exact ih.enter h new key
  | leave h came stays ih => exact ih.leave ⟨came, stays⟩

theorem Handed.of_prefix {now : List Visit} (h : Handed now user key lock) (early : now <+: past) :
    Handed past user key lock := by
  obtain ⟨before, earlier, given⟩ := h
  exact ⟨before, earlier.trans early, given⟩

theorem Orderly.handed_unique (h : Orderly past) {lock' : Nat} (given : Handed past user key lock)
    (given' : Handed past user key lock') : lock = lock' := by
  induction h with
  | nil => cases given.mem
  | enter h new k ih =>
    rcases handed_append.1 given with before | ⟨now, rfl⟩
    · rcases handed_append.1 given' with before' | ⟨now', -⟩
      · exact ih before before'
      · exact absurd ((Visit.enter.inj now').1 ▸ before.mem) (new key)
    · rcases handed_append.1 given' with before' | ⟨-, rfl⟩
      · exact absurd ((Visit.enter.inj now).1 ▸ before'.mem) (new key)
      · rfl
  | leave h came stays ih =>
    have before := (handed_append.1 given).resolve_right fun now ↦ nomatch now.1
    have before' := (handed_append.1 given').resolve_right fun now ↦ nomatch now.1
    exact ih before before'

theorem Orderly.handed_iff_of_together (h : Orderly past) (meet : Together past key user other) :
    ∃ lock, (∀ given, Handed past user key given ↔ given = lock) ∧
      ∀ given, Handed past other key given ↔ given = lock := by
  obtain ⟨now, early, there, there'⟩ := meet
  have tracks := (h.of_prefix early).tracks
  obtain ⟨lock, given⟩ := exists_handed there.1
  obtain ⟨lock', given'⟩ := exists_handed there'.1
  obtain rfl : lock = lock' :=
    (tracks.eq_enter there given).trans (tracks.eq_enter there' given').symm
  have known := given.of_prefix early
  have known' := given'.of_prefix early
  refine ⟨lock, fun found ↦ ⟨fun held ↦ h.handed_unique held known, ?_⟩,
    fun found ↦ ⟨fun held ↦ h.handed_unique held known', ?_⟩⟩
  · rintro rfl
    exact known
  · rintro rfl
    exact known'

/-- In every interleaving of visits the table has the keys in use and counts their users, no user
leaves a key that is not there, users who are at a key together have one lock, and users of different
keys never do. -/
theorem Orderly.counts_and_locks (h : Orderly past) :
    (∀ key, ((after past).held.get? key).map (·.2) =
      if (users past key).ncard = 0 then none else some (users past key).ncard) ∧
    (after past).size = {key | (users past key).Nonempty}.ncard ∧
    ((∀ key, users past key = ∅) → (after past).size = 0) ∧
    (∀ before user key, before ++ [.leave user key] <+: past → key ∈ (after before).held.keys) ∧
    (∀ key user other, Together past key user other → ∃ lock,
      (∀ given, Handed past user key given ↔ given = lock) ∧
        ∀ given, Handed past other key given ↔ given = lock) ∧
    ∀ key k user other lock, key ≠ k → Handed past user key lock → ¬ Handed past other k lock := by
  have tracks := h.tracks
  refine ⟨tracks.counted, tracks.size_eq, fun gone ↦ ?_, fun before user key early ↦ ?_,
    fun key user other meet ↦ h.handed_iff_of_together meet, ?_⟩
  · have unused : {key | (users past key).Nonempty} = ∅ := by
      apply Set.eq_empty_of_forall_notMem
      intro key used
      exact Set.not_nonempty_iff_eq_empty.2 (gone key) used
    rw [tracks.size_eq, unused, Set.ncard_empty]
  · have earlier : Orderly before :=
      h.of_prefix ((List.prefix_append before _).trans early)
    obtain ⟨came, stays⟩ := (h.of_prefix early).mem_users_of_leave
    exact (earlier.tracks.mem_keys_iff key).2 ⟨user, came, stays⟩
  · intro key k user other lock apart given given'
    exact apart (tracks.own _ _ _ _ _ given given')

/-- The first user of a key leaves while the second one waits, and a third one comes. -/
def contended : List Visit :=
  [.enter 0 "a", .enter 1 "a", .enter 2 "b", .leave 0 "a", .enter 3 "a", .leave 1 "a"]

theorem orderly_contended : Orderly contended := by
  have first : Orderly [.enter 0 "a"] := Orderly.nil.enter (by simp) _
  have second : Orderly (contended.take 2) := first.enter (by simp) _
  have elsewhere : Orderly (contended.take 3) := second.enter (by simp [contended]) _
  have gone : Orderly (contended.take 4) := elsewhere.leave (by simp [contended]) (by decide)
  have third : Orderly (contended.take 5) := gone.enter (by simp [contended]) _
  exact third.leave (by simp [contended]) (by decide)

theorem Orderly.counts_and_locks_contended : Orderly contended ∧
    ("a" : Text) ∈ (after (contended.take 3)).held.keys ∧
    ∃ lock, Handed contended 1 "a" lock ∧ Handed contended 3 "a" lock ∧
      ¬ Handed contended 2 "b" lock := by
  obtain ⟨-, -, -, known, shared, apart⟩ := orderly_contended.counts_and_locks
  have meet : Together contended "a" 1 3 := by
    refine ⟨contended.take 5, List.take_prefix _ _, ?_, ?_⟩
    · exact ⟨by decide, by decide⟩
    · exact ⟨by decide, by decide⟩
  obtain ⟨lock, second, third⟩ := shared "a" 1 3 meet
  refine ⟨orderly_contended, known (contended.take 3) 0 "a" (List.take_prefix 4 contended), lock,
    (second lock).2 rfl, (third lock).2 rfl, ?_⟩
  exact apart "a" "b" 1 2 lock (by decide) ((second lock).2 rfl)

end ShardVault.KeyedLocks
