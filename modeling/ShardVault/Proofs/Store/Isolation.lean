import ShardVault.Proofs.Store.Laws
import ShardVault.Store.Request

namespace ShardVault

namespace Database

variable {db db' both : Database} {name other first second table : Text} {request : Store.Request}
  {calls : List (Text × Store.Request)}

theorem get?_withTable (db : Database) (table k : Text) : (db.withTable table).get? k =
    if k = table then some (db.rows table) else db.get? k := by
  rw [withTable, rows]
  split
  · next there =>
    obtain ⟨rows, found⟩ := Option.isSome_iff_exists.1 ((Entries.isSome_get? db table).trans there)
    split
    · next same => rw [same, found, Option.getD_some]
    · rfl
  · next absent =>
    have missing : db.get? table = none := by
      rw [← Option.not_isSome_iff_eq_none, Entries.isSome_get?]
      exact absent
    rw [Entries.get?_put, missing, Option.getD_none]

theorem tableName_eq_ok (h : tableName name = .ok table) : table = folded name := by
  unfold tableName at h
  split at h
  · cases h
  split at h
  · cases h
  · exact (Except.ok.inj h).symm

theorem opened_of_accepted (h : tableName name = .ok table) (db : Database) :
    db.opened name = .ok (db.withTable (folded name)) := by
  rw [opened, h, map_ok, tableName_eq_ok h]

theorem serve_of_some {rows : Table} (found : db.get? (folded name) = some rows)
    (request : Store.Request) : db.serve name request =
      (((Store.table rows).serve request).1,
        db.put (folded name) ((Store.table rows).serve request).2.entries) := by
  have there : db.has (folded name) = true := by
    rw [← Entries.isSome_get?, found, Option.isSome_some]
  rw [serve, if_pos there, Database.rows, found, Option.getD_some]

theorem serve_of_none (missing : db.get? (folded name) = none) (request : Store.Request) :
    db.serve name request = (.error .database, db) := by
  have absent : db.has (folded name) = false := by
    rw [← Entries.isSome_get?, missing, Option.isSome_none]
  rw [serve, if_neg (Bool.eq_false_iff.1 absent)]

/-- The answer to a request and the table after it depend on the table of the request only. -/
theorem serve_congr (same : db.get? (folded name) = db'.get? (folded name))
    (request : Store.Request) : (db.serve name request).1 = (db'.serve name request).1 ∧
      (db.serve name request).2.get? (folded name) =
        (db'.serve name request).2.get? (folded name) := by
  cases found : db.get? (folded name) with
  | none =>
    rw [serve_of_none found, serve_of_none (same ▸ found)]
    exact ⟨rfl, same⟩
  | some rows =>
    rw [serve_of_some found, serve_of_some (same ▸ found)]
    refine ⟨rfl, ?_⟩
    rw [Entries.get?_put, Entries.get?_put, if_pos rfl, if_pos rfl]

theorem get?_serve_of_ne (apart : folded name ≠ table) (db : Database) (request : Store.Request) :
    (db.serve name request).2.get? table = db.get? table := by
  cases found : db.get? (folded name) with
  | none => rw [serve_of_none found]
  | some rows => rw [serve_of_some found, Entries.get?_put, if_neg apart.symm]

/-- Among requests to other tables, a store answers as it would answer its own requests alone. -/
theorem filter_serveAll (same : db.get? (folded name) = db'.get? (folded name))
    (apart : ∀ call ∈ calls, call.1 = name ∨ folded call.1 ≠ folded name) :
    (db.serveAll calls).1.filter (·.1 == name) =
      (db'.serveAll (calls.filter (·.1 == name))).1 := by
  induction calls generalizing db db' with
  | nil => rfl
  | cons call calls ih =>
    obtain ⟨asked, request⟩ := call
    have rest : ∀ call ∈ calls, call.1 = name ∨ folded call.1 ≠ folded name :=
      fun call there ↦ apart call (List.mem_cons_of_mem _ there)
    by_cases own : asked = name
    · subst own
      obtain ⟨answer, after⟩ := serve_congr same request
      simp only [serveAll, List.filter_cons, beq_self_eq_true, if_true, answer, ih after rest]
    · have other := (apart _ List.mem_cons_self).resolve_left own
      have after : (db.serve asked request).2.get? (folded name) = db'.get? (folded name) :=
        (get?_serve_of_ne other db request).trans same
      simp only [serveAll, List.filter_cons, beq_eq_false_iff_ne.2 own, Bool.false_eq_true,
        if_false]
      exact ih after rest

/-- Whatever the two stores that are opened under these names are asked in turn, each of them answers
as it would if the other had not been opened and had not been asked. -/
def Isolated (db : Database) (first second : Text) : Prop :=
  ∀ both, (db.opened first >>= (·.opened second)) = .ok both →
    ∀ calls : List (Text × Store.Request), (∀ call ∈ calls, call.1 = first ∨ call.1 = second) →
      ∀ name alone, name = first ∨ name = second → db.opened name = .ok alone →
        (both.serveAll calls).1.filter (·.1 == name) =
          (alone.serveAll (calls.filter (·.1 == name))).1

theorem isolated_of_ne {a b : Text} (accepted : tableName first = .ok a)
    (accepted' : tableName second = .ok b) (apart : folded first ≠ folded second) (db : Database) :
    Isolated db first second := by
  intro both opens calls asked name alone which opens'
  rw [opened_of_accepted accepted, ok_bind, opened_of_accepted accepted'] at opens
  obtain rfl := Except.ok.inj opens
  rcases which with rfl | rfl
  · rw [opened_of_accepted accepted] at opens'
    obtain rfl := Except.ok.inj opens'
    apply filter_serveAll
    · rw [get?_withTable, if_neg apart]
    · intro call there
      rcases asked call there with own | other
      · exact .inl own
      · exact .inr (other ▸ apart.symm)
  · rw [opened_of_accepted accepted'] at opens'
    obtain rfl := Except.ok.inj opens'
    apply filter_serveAll
    · rw [get?_withTable, if_pos rfl, rows, get?_withTable, if_neg apart.symm, get?_withTable,
        if_pos rfl, rows]
    · intro call there
      rcases asked call there with other | own
      · exact .inr (other ▸ apart)
      · exact .inl own

theorem serveAll_of_folded_eq {rows : Table} (same : folded first = folded second)
    (found : db.get? (folded second) = some rows) (value : Bytes) :
    (db.serveAll [(first, .put [] value), (second, .get [])]).1 =
      [(first, .ok .written), (second, .ok (.found (some value)))] := by
  have wrote : db.serve first (.put [] value) =
      (.ok .written, db.put (folded second) (rows.insert [] value)) := by
    rw [serve_of_some (same ▸ found), same]
    rfl
  have now : (db.put (folded second) (rows.insert [] value)).get? (folded second) =
      some (rows.insert [] value) := by
    rw [Entries.get?_put, if_pos rfl]
  have there : Entries.get? (rows.insert [] value) [] = some value := by
    rw [Table.get?_insert, if_pos rfl]
  simp only [serveAll, wrote, serve_of_some now, ← there]
  rfl

theorem not_isolated_of_eq {a b : Text} (different : first ≠ second)
    (accepted : tableName first = .ok a) (accepted' : tableName second = .ok b)
    (same : folded first = folded second) (db : Database) : ¬ Isolated db first second := by
  intro isolated
  let held := Entries.get? (db.rows (folded second)) []
  let value := held.getD [] ++ [0]
  have new : some value ≠ held := by
    simp only [value]
    cases held with
    | none => exact Option.some_ne_none _
    | some old => simp
  have opens : (db.opened first >>= (·.opened second)) =
      .ok ((db.withTable (folded second)).withTable (folded second)) := by
    rw [opened_of_accepted accepted, ok_bind, opened_of_accepted accepted', same]
  have answers := isolated _ opens [(first, .put [] value), (second, .get [])] (by simp) second _
    (.inr rfl) (opened_of_accepted accepted' db)
  have found : (db.withTable (folded second)).get? (folded second) =
      some (db.rows (folded second)) := by
    rw [get?_withTable, if_pos rfl]
  have found' : ((db.withTable (folded second)).withTable (folded second)).get? (folded second) =
      some (db.rows (folded second)) := by
    rw [get?_withTable, if_pos rfl, rows, found, Option.getD_some]
  rw [serveAll_of_folded_eq same found'] at answers
  simp only [List.filter_cons, beq_eq_false_iff_ne.2 different, beq_self_eq_true, if_true,
    Bool.false_eq_true, if_false, List.filter_nil, serveAll, serve_of_some found] at answers
  have read := Except.ok.inj (Prod.mk.inj (List.cons.inj answers).1).2
  exact new (Store.Answer.found.inj read)

/-- Two stores on one database are apart just if the names under which they are opened fold to
different names. -/
theorem isolated_iff {a b : Text} (different : first ≠ second) (accepted : tableName first = .ok a)
    (accepted' : tableName second = .ok b) (db : Database) :
    Isolated db first second ↔ folded first ≠ folded second := by
  refine ⟨fun isolated same ↦ ?_, fun apart ↦ isolated_of_ne accepted accepted' apart db⟩
  exact not_isolated_of_eq different accepted accepted' same db isolated

theorem isolated_iff_distinct : ("first" : Text) ≠ "second" ∧ Isolated [] "first" "second" := by
  have different : ("first" : Text) ≠ "second" := by decide
  have accepted : tableName "first" = .ok "first" := rfl
  have accepted' : tableName "second" = .ok "second" := rfl
  exact ⟨different, (isolated_iff different accepted accepted' []).2 (by decide)⟩

/-- The name in capitals and the name with a line feed behind it are accepted as well, and what is
written under the one is there under the other. -/
theorem not_isolated : ("kv" : Text) ≠ "KV" ∧ ("kv" : Text) ≠ "kv\n" ∧
    tableName "kv" = .ok "kv" ∧ tableName "KV" = .ok "kv" ∧ tableName "kv\n" = .ok "kv" ∧
    ¬ Isolated [] "kv" "KV" ∧ ¬ Isolated [] "kv" "kv\n" := by
  have plain : tableName "kv" = .ok "kv" := rfl
  have capitals : tableName "KV" = .ok "kv" := rfl
  have ended : tableName "kv\n" = .ok "kv" := rfl
  have different : ("kv" : Text) ≠ "KV" := by decide
  have different' : ("kv" : Text) ≠ "kv\n" := by decide
  exact ⟨different, different', plain, capitals, ended,
    not_isolated_of_eq different plain capitals rfl [],
    not_isolated_of_eq different' plain ended rfl []⟩

end Database

end ShardVault
