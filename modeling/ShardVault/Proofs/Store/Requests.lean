import ShardVault.Proofs.Store.Order
import ShardVault.Store.Request

namespace ShardVault

namespace Store

namespace Request

def key? : Request → Option Text
  | .get key | .put key _ | .delete key => some key
  | .keys => none

def effect (key : Text) (before : Option Bytes) : Request → Option Bytes
  | .put other value => if key = other then some value else before
  | .delete other => if key = other then none else before
  | .get _ | .keys => before

end Request

def held (past : List Request) (key : Text) : Option Bytes :=
  past.foldl (Request.effect key) none

/-- The answer to a request after others, from a store that lists these keys. -/
def Request.answer (past : List Request) (keys : List Text) : Request → Answer
  | .get key => .found (held past key)
  | .put _ _ => .written
  | .delete key => .deleted (held past key).isSome
  | .keys => .listed keys

def Arrives (past : List Request) (key : Text) (n : Nat) : Prop :=
  (∃ value, past[n]? = some (.put key value)) ∧ held (past.take n) key = none

structure LastArrival (past : List Request) (key : Text) (n : Nat) : Prop where
  arrives : Arrives past key n
  last : ∀ m, Arrives past key m → m ≤ n

def ArrivedBefore (past : List Request) (key other : Text) : Prop :=
  ∃ m n, LastArrival past key m ∧ LastArrival past other n ∧ m < n

variable {past requests : List Request} {request : Request} {keys : List Text} {key k : Text}
  {value : Bytes} {n : Nat} {s s' : Store} {inTable : Bool}

theorem held_append (past : List Request) (request : Request) (key : Text) :
    held (past ++ [request]) key = request.effect key (held past key) :=
  List.foldl_append

theorem Arrives.lt (h : Arrives past key n) : n < past.length := by
  obtain ⟨⟨value, there⟩, -⟩ := h
  exact (List.getElem?_eq_some_iff.1 there).1

theorem arrives_append : Arrives (past ++ [request]) key n ↔ Arrives past key n ∨
    n = past.length ∧ (∃ value, request = .put key value) ∧ held past key = none := by
  rcases Nat.lt_trichotomy n past.length with before | here | after
  · rw [Arrives, List.getElem?_append_left before,
      List.take_append_of_le_length (Nat.le_of_lt before)]
    exact (or_iff_left fun h ↦ Nat.ne_of_lt before h.1).symm
  · subst here
    have unknown : ¬ Arrives past key past.length := fun h ↦ Nat.lt_irrefl _ h.lt
    rw [or_iff_right unknown, Arrives, List.getElem?_concat_length, List.take_left]
    simp only [Option.some.injEq, true_and]
  · refine iff_of_false (fun h ↦ ?_) (fun h ↦ ?_)
    · have bound := h.lt
      rw [List.length_append, List.length_singleton] at bound
      omega
    · rcases h with h | h
      · exact Nat.lt_asymm after h.lt
      · exact Nat.ne_of_gt after h.1

theorem LastArrival.append (h : LastArrival past key n)
    (idle : ∀ value, request = .put key value → held past key ≠ none) :
    LastArrival (past ++ [request]) key n := by
  refine ⟨arrives_append.2 (.inl h.arrives), fun m later ↦ ?_⟩
  rcases arrives_append.1 later with before | ⟨-, ⟨value, wrote⟩, absent⟩
  · exact h.last m before
  · exact absurd absent (idle value wrote)

theorem lastArrival_put (absent : held past key = none) (value : Bytes) :
    LastArrival (past ++ [.put key value]) key past.length := by
  refine ⟨arrives_append.2 (.inr ⟨rfl, ⟨value, rfl⟩, absent⟩), fun m later ↦ ?_⟩
  rcases arrives_append.1 later with before | now
  · exact Nat.le_of_lt before.lt
  · exact Nat.le_of_eq now.1

structure Chronological (past : List Request) (keys : List Text) : Prop where
  arrived : ∀ key ∈ keys, ∃ n, LastArrival past key n
  order : keys.Pairwise (ArrivedBefore past)

theorem Chronological.append (h : Chronological past keys)
    (idle : ∀ key ∈ keys, ∀ value, request = .put key value → held past key ≠ none) :
    Chronological (past ++ [request]) keys := by
  refine ⟨fun key hk ↦ ?_, h.order.imp_of_mem fun hk ho before ↦ ?_⟩
  · obtain ⟨n, last⟩ := h.arrived key hk
    exact ⟨n, last.append (idle key hk)⟩
  · obtain ⟨m, n, first, second, lt⟩ := before
    exact ⟨m, n, first.append (idle _ hk), second.append (idle _ ho), lt⟩

theorem Chronological.filter (h : Chronological past keys) (kept : Text → Bool) :
    Chronological past (keys.filter kept) :=
  ⟨fun key hk ↦ h.arrived key (List.mem_of_mem_filter hk), h.order.filter kept⟩

theorem Chronological.add (h : Chronological past keys) (absent : held past key = none)
    (new : key ∉ keys) (value : Bytes) :
    Chronological (past ++ [.put key value]) (keys ++ [key]) := by
  have idle : ∀ k ∈ keys, ∀ v, Request.put key value = .put k v → held past k ≠ none := by
    intro k hk v same
    exact absurd ((Request.put.inj same).1 ▸ hk) new
  have before := h.append idle
  have last := lastArrival_put absent value
  refine ⟨fun k hk ↦ ?_, List.pairwise_append.2 ⟨before.order, List.pairwise_singleton _ _, ?_⟩⟩
  · rcases List.mem_append.1 hk with hk | hk
    · exact before.arrived k hk
    · rw [List.mem_singleton.1 hk]
      exact ⟨_, last⟩
  · intro k hk other ho
    obtain ⟨m, arrived⟩ := h.arrived k hk
    rw [List.mem_singleton.1 ho]
    exact ⟨m, _, arrived.append (idle k hk), last, arrived.arrives.lt⟩

/-- A key that is there keeps its place when it is written, another one comes to the end. -/
theorem Chronological.put {entries : Entries Bytes} (h : Chronological past entries.keys)
    (there : ∀ key, key ∈ entries.keys ↔ (held past key).isSome = true) (key : Text)
    (value : Bytes) : Chronological (past ++ [.put key value]) (entries.put key value).keys := by
  by_cases old : key ∈ entries.keys
  · rw [Entries.keys_put_of_mem old]
    refine h.append fun k hk v same ↦ ?_
    exact Option.isSome_iff_ne_none.1 ((there k).1 hk)
  · have absent := Option.not_isSome_iff_eq_none.1 (mt (there key).2 old)
    rw [Entries.put_of_not_mem old, Entries.keys, List.map_append, List.map_singleton]
    exact h.add absent old value

/-- The store after requests to a store without limits that was empty. -/
structure Tracks (inTable : Bool) (past : List Request) (s : Store) : Prop where
  kind : s.shelf.isTable = inTable
  room : s.room = none
  sound : s.Sound
  peek : ∀ key, s.peek key = held past key
  order : inTable = false → Chronological past s.keys

theorem Tracks.mem_keys_iff (h : Tracks inTable past s) (key : Text) :
    key ∈ s.keys ↔ (held past key).isSome = true := by
  rw [Store.mem_keys_iff, h.peek, Option.isSome_iff_exists]

theorem Tracks.idle (h : Tracks inTable past s)
    (unchanged : ∀ key before, request.effect key before = before)
    (noPut : ∀ key value, request ≠ .put key value) : Tracks inTable (past ++ [request]) s where
  kind := h.kind
  room := h.room
  sound := h.sound
  peek := by
    intro key
    rw [held_append, unchanged, h.peek]
  order := by
    intro inMemory
    exact (h.order inMemory).append fun key _ value wrote ↦ absurd wrote (noPut key value)

theorem Tracks.drop (h : Tracks inTable past s) (key : Text) :
    Tracks inTable (past ++ [.delete key]) (s.drop (· == key)) where
  kind := by
    rw [← h.kind]
    obtain ⟨_ | _, _⟩ := s <;> rfl
  room := h.room
  sound := h.sound.drop _
  peek := by
    intro k
    rw [peek_drop, held_append, h.peek]
    simp only [Request.effect, beq_iff_eq]
  order := by
    intro inMemory
    rw [keys_drop]
    exact ((h.order inMemory).filter _).append fun _ _ _ wrote ↦ nomatch wrote

theorem Tracks.put (h : Tracks inTable past s) (scalar : key.isScalar = true)
    (wrote : s.put key value = .ok s') : Tracks inTable (past ++ [.put key value]) s' := by
  have peek : ∀ k, s'.peek k = held (past ++ [.put key value]) k := by
    intro k
    rw [peek_put wrote, held_append, h.peek, Request.effect]
  obtain ⟨-, room, written⟩ := put_eq_ok wrote
  rw [h.room] at room
  have sound := h.sound.put scalar wrote
  rcases written with ⟨entries, shelf, shelf'⟩ | ⟨rows, shelf, shelf'⟩
  · refine ⟨?_, room, sound, peek, fun inMemory ↦ ?_⟩
    · rw [← h.kind, shelf, shelf', Shelf.isTable, Shelf.isTable]
    · have known := h.order inMemory
      have there := h.mem_keys_iff
      simp only [Store.keys, Store.entries, shelf, shelf', Shelf.entries] at known there ⊢
      exact known.put there key value
  · have kind : inTable = true := by rw [← h.kind, shelf, Shelf.isTable]
    refine ⟨?_, room, sound, peek, fun inMemory ↦ ?_⟩
    · rw [shelf', Shelf.isTable, kind]
    · rw [kind] at inMemory
      cases inMemory

theorem Tracks.serve (h : Tracks inTable past s)
    (scalar : ∀ key ∈ request.key?, key.isScalar = true) :
    (s.serve request).1 = .ok (request.answer past s.keys) ∧
      Tracks inTable (past ++ [request]) (s.serve request).2 := by
  cases request with
  | get key =>
    have answer : s.get key = .ok (held past key) := by
      rw [get_of_isScalar (scalar key rfl), h.peek]
    simp only [Store.serve, attend, answer, map_ok]
    exact ⟨rfl, h.idle (fun _ _ ↦ rfl) nofun⟩
  | put key value =>
    obtain ⟨s', wrote, -⟩ := put_of_room h.room (scalar key rfl) value
    simp only [Store.serve, attend, wrote, map_ok]
    exact ⟨rfl, h.put (scalar key rfl) wrote⟩
  | delete key =>
    have answer : s.delete key = .ok ((held past key).isSome, s.drop (· == key)) := by
      rw [delete_eq, if_pos (admits_of_isScalar s (scalar key rfl)), h.peek]
    simp only [Store.serve, attend, answer, map_ok]
    exact ⟨rfl, h.drop key⟩
  | keys => exact ⟨rfl, h.idle (fun _ _ ↦ rfl) nofun⟩

theorem length_serveAll (s : Store) (requests : List Request) :
    (s.serveAll requests).1.length = requests.length := by
  induction requests generalizing s with
  | nil => rfl
  | cons request requests ih => exact congrArg (· + 1) (ih _)

/-- Every answer of a run is told by the requests before it and the keys of some tracked store. -/
theorem Tracks.serveAll (h : Tracks inTable past s)
    (scalar : ∀ request ∈ requests, ∀ key ∈ request.key?, key.isScalar = true)
    (there : requests[n]? = some request) :
    ∃ t, Tracks inTable (past ++ requests.take n) t ∧
      (s.serveAll requests).1[n]? =
        some (.ok (request.answer (past ++ requests.take n) t.keys)) := by
  induction requests generalizing past s n with
  | nil => cases there
  | cons first requests ih =>
    obtain ⟨answer, after⟩ := h.serve (scalar first List.mem_cons_self)
    cases n with
    | zero =>
      obtain rfl := Option.some.inj there
      rw [List.take_zero, List.append_nil]
      exact ⟨s, h, congrArg some answer⟩
    | succ n =>
      rw [List.take_succ_cons, List.append_cons]
      exact ih after (fun r hr ↦ scalar r (List.mem_cons_of_mem _ hr)) there

theorem tracks_of_entries_eq_nil (s : Store) (room : s.room = none) (none : s.entries = []) :
    Tracks s.shelf.isTable [] s where
  kind := rfl
  room := room
  sound := .of_entries_eq_nil none
  peek := by
    intro key
    rw [Store.peek, none]
    rfl
  order := by
    intro _
    rw [Store.keys, none]
    exact ⟨List.forall_mem_nil _, List.Pairwise.nil⟩

/-- For any requests about keys without surrogates, a store in memory and a table that are empty at
first give the same answers, but for the order of keys: a store in memory lists them as they last
came to be there, a table in rising order. -/
theorem serveAll_memory_table (requests : List Request)
    (scalar : ∀ request ∈ requests, ∀ key ∈ request.key?, key.isScalar = true) :
    (empty.serveAll requests).1.length = requests.length ∧
      ((table []).serveAll requests).1.length = requests.length ∧
      ∀ n request, requests[n]? = some request → ∃ added rising : List Text,
        (empty.serveAll requests).1[n]? = some (.ok (request.answer (requests.take n) added)) ∧
        ((table []).serveAll requests).1[n]? =
          some (.ok (request.answer (requests.take n) rising)) ∧
        added.Perm rising ∧ added.Nodup ∧
        (∀ key, key ∈ added ↔ (held (requests.take n) key).isSome = true) ∧
        added.Pairwise (ArrivedBefore (requests.take n)) ∧
        rising.Pairwise fun key other ↦ key.notAfter other = true ∧ key ≠ other := by
  refine ⟨length_serveAll _ _, length_serveAll _ _, fun n request there ↦ ?_⟩
  have inMemory := tracks_of_entries_eq_nil empty rfl rfl
  have inTable := tracks_of_entries_eq_nil (table []) rfl rfl
  obtain ⟨s, memory, answer⟩ := inMemory.serveAll scalar there
  obtain ⟨t, rows, answer'⟩ := inTable.serveAll scalar there
  rw [List.nil_append] at memory answer rows answer'
  have same : s.keys.Perm t.keys := by
    apply (List.perm_ext_iff_of_nodup memory.sound.distinct rows.sound.distinct).2
    intro key
    rw [memory.mem_keys_iff, rows.mem_keys_iff]
  refine ⟨s.keys, t.keys, answer, answer', same, memory.sound.distinct, memory.mem_keys_iff,
    (memory.order rfl).order, ?_⟩
  obtain ⟨_ | rows', room⟩ := t
  · cases rows.kind
  · exact List.pairwise_map.2 (rows.sound.ordered rows' rfl)

/-- A key with an empty value is written again, removed and brought back. -/
def moved : List Request :=
  [.put "b" [], .put "a" [1], .put "b" [2], .keys, .delete "b", .put "b" [], .keys]

/-- What is written again keeps its place in memory, what is brought back is at the end. -/
theorem serveAll_memory_table_moved : ∃ first last rising : List Text,
    (empty.serveAll moved).1[3]? = some (.ok (.listed first)) ∧
      (empty.serveAll moved).1[6]? = some (.ok (.listed last)) ∧
      ((table []).serveAll moved).1[6]? = some (.ok (.listed rising)) ∧
      first = (["b", "a"] : List Text) ∧ last = (["a", "b"] : List Text) ∧ last.Perm rising ∧
      last.Pairwise (ArrivedBefore (moved.take 6)) := by
  obtain ⟨-, -, all⟩ := serveAll_memory_table moved (by decide)
  obtain ⟨first, -, before, -⟩ := all 3 .keys rfl
  obtain ⟨last, rising, memory, rows, same, -, -, order, -⟩ := all 6 .keys rfl
  have first_eq : (["b", "a"] : List Text) = first :=
    Answer.listed.inj (Except.ok.inj (Option.some.inj before))
  have last_eq : (["a", "b"] : List Text) = last :=
    Answer.listed.inj (Except.ok.inj (Option.some.inj memory))
  exact ⟨first, last, rising, before, memory, rows, first_eq.symm, last_eq.symm, same, order⟩

end Store

end ShardVault
