import ShardVault.Container.Workers
import ShardVault.Proofs.Container.Encryption

namespace ShardVault

theorem forall₂_iff_getElem? {α β : Type} {R : α → β → Prop} {xs : List α} {ys : List β} :
    List.Forall₂ R xs ys ↔ xs.length = ys.length ∧
      ∀ (place : Nat) (y : β), ys[place]? = some y → ∃ x, xs[place]? = some x ∧ R x y := by
  constructor
  · intro h
    refine ⟨h.length_eq, fun place y hy ↦ ?_⟩
    obtain ⟨hp, rfl⟩ := List.getElem?_eq_some_iff.1 hy
    have hx : place < xs.length := h.length_eq ▸ hp
    exact ⟨xs[place], List.getElem?_eq_getElem hx, h.get hx hp⟩
  · rintro ⟨size, h⟩
    refine List.forall₂_iff_get.2 ⟨size, fun place hx hy ↦ ?_⟩
    obtain ⟨x, found, hr⟩ := h place ys[place] (List.getElem?_eq_getElem hy)
    rw [List.getElem?_eq_getElem hx] at found
    obtain rfl := Option.some.inj found
    exact hr

theorem forall₂_filterMap_range {α β : Type} {R : α → β → Prop} {items : List α}
    {found : Nat → Option β}
    (h : ∀ place item, items[place]? = some item → ∃ result, found place = some result ∧ R item result) :
    List.Forall₂ R items ((List.range items.length).filterMap found) := by
  induction items generalizing found with
  | nil => exact .nil
  | cons item items ih =>
    obtain ⟨result, hfound, hr⟩ := h 0 item rfl
    rw [List.length_cons, List.range_succ_eq_map, List.filterMap_cons_some hfound,
      List.filterMap_map]
    exact .cons hr (ih fun place item hi ↦ h (place + 1) item hi)

namespace Workers

def alone : Workers :=
  ⟨1, List.range, fun _ ↦ .refl _⟩

def backward : Workers :=
  ⟨2, fun tasks ↦ (List.range tasks).reverse, fun _ ↦ List.reverse_perm _⟩

variable {σ α β : Type} {task : σ → α → β × σ} {R : α → β → Prop}

theorem forall₂_inOrder {items : List α} (h : ∀ s, ∀ item ∈ items, R item (task s item).1) (s : σ) :
    List.Forall₂ R items (inOrder task s items).1 := by
  induction items generalizing s with
  | nil => exact .nil
  | cons item items ih =>
    exact .cons (h s item (by simp)) (ih (fun s other ho ↦ h s other (by simp [ho])) _)

theorem exists_lookup {queue : List (Nat × α)} {done : List (Nat × β)} {place : Nat}
    (h : List.Forall₂ (fun entry result ↦ result.1 = entry.1 ∧ R entry.2 result.2) queue done)
    (hp : place ∈ queue.map (·.1)) :
    ∃ item result, (place, item) ∈ queue ∧ done.lookup place = some result ∧ R item result := by
  induction h with
  | nil => cases hp
  | @cons entry result queue done first others ih =>
    obtain ⟨number, item⟩ := entry
    obtain ⟨number', result⟩ := result
    obtain ⟨rfl, hr⟩ := first
    by_cases same : place = number'
    · subst same
      exact ⟨item, result, by simp, by simp, hr⟩
    · obtain ⟨item', result', hq, hd, hr'⟩ := ih (by simpa [same] using hp)
      refine ⟨item', result', by simp [hq], ?_, hr'⟩
      rwa [List.lookup_cons, beq_eq_false_iff_ne.2 same]

theorem mem_queue {items : List α} {turns : List Nat} {place : Nat} {item : α} :
    (place, item) ∈ (turns.filterMap fun turn ↦ items[turn]?.map (turn, ·)) ↔
      place ∈ turns ∧ items[place]? = some item := by
  simp only [List.mem_filterMap, Option.map_eq_some_iff, Prod.mk.injEq]
  constructor
  · rintro ⟨turn, ht, item', hi, rfl, rfl⟩
    exact ⟨ht, hi⟩
  · rintro ⟨ht, hi⟩
    exact ⟨place, ht, item, hi, rfl, rfl⟩

theorem forall₂_inTurns {items : List α} (h : ∀ s, ∀ item ∈ items, R item (task s item).1) (s : σ)
    (turns : List Nat) :
    List.Forall₂ (fun entry result ↦ result.1 = entry.1 ∧ R entry.2 result.2)
      (turns.filterMap fun turn ↦ items[turn]?.map (turn, ·)) (inTurns task s items turns).1 := by
  apply forall₂_inOrder
  intro s entry he
  exact ⟨rfl, h s entry.2 (List.mem_of_getElem? (mem_queue.1 he).2)⟩

/-- Results stand at the places of their tasks: every task has its turn, whenever that is. -/
theorem forall₂_map (w : Workers) {items : List α}
    (h : ∀ s, ∀ item ∈ items, R item (task s item).1) (s : σ) :
    List.Forall₂ R items (w.map task s items).1 := by
  unfold map
  split
  swap
  · exact forall₂_inOrder h s
  apply forall₂_filterMap_range
  intro place item hi
  have turn : place ∈ w.turns items.length :=
    (w.complete items.length).mem_iff.2 (List.mem_range.2 (List.getElem?_eq_some_iff.1 hi).1)
  have queued := List.mem_map_of_mem (f := Prod.fst) (mem_queue.2 ⟨turn, hi⟩)
  obtain ⟨item', result, hq, hd, hr⟩ := exists_lookup (forall₂_inTurns h s _) queued
  obtain rfl := Option.some.inj ((mem_queue.1 hq).2.symm.trans hi)
  exact ⟨result, hd, hr⟩

theorem map_eq (w : Workers) {f : α → β} (h : ∀ s item, (task s item).1 = f item) (s : σ)
    (items : List α) : (w.map task s items).1 = items.map f := by
  have each := w.forall₂_map (fun s item (_ : item ∈ items) ↦ (h s item).symm) s
  have same : List.Forall₂ (· = ·) (items.map f) (w.map task s items).1 :=
    List.forall₂_map_left_iff.2 each
  rw [List.forall₂_eq_eq_eq] at same
  exact same.symm

end Workers

namespace Container

theorem openAll_eq (w : Workers) (key : CipherKey) (chunks : List Chunk) :
    openAll w key chunks = openChunks key [] chunks := by
  unfold openAll
  split
  swap
  · rfl
  rw [w.map_eq (f := openChunk key) (fun _ _ ↦ rfl), List.mapM_map, openChunks_eq]
  rcases hpieces : chunks.mapM (openChunk key) with failure | pieces
  · exact hpieces
  · exact hpieces

theorem decryptBy_eq (w : Workers) (deriver : KeyDeriver) (c : Container) :
    c.decryptBy w deriver = c.decrypt deriver := by
  simp only [decryptBy, openAll_eq]
  rfl

theorem sealChunks_eq (key : CipherKey) (position : Nat) (nonces : NonceSupply) (done : List Chunk)
    (pieces : List Bytes) : sealChunks key position nonces done pieces =
      (done.reverse ++ (Workers.inOrder (sealPiece key) nonces (pieces.zipIdx position)).1,
        (Workers.inOrder (sealPiece key) nonces (pieces.zipIdx position)).2) := by
  induction pieces generalizing position nonces done with
  | nil => simp [sealChunks, Workers.inOrder]
  | cons piece pieces ih =>
    simp only [sealChunks, ih, List.zipIdx_cons, Workers.inOrder, sealPiece, List.reverse_cons,
      List.append_assoc, List.singleton_append]

theorem Encryptor.encryptBy_eq_encrypt {w : Workers} (single : w.count ≤ 1) (e : Encryptor)
    (data : Bytes) (fileId : Text) (nonces : NonceSupply) (createdAt : DateTime) :
    e.encryptBy w data fileId nonces createdAt = e.encrypt data fileId nonces createdAt := by
  simp only [encryptBy, encrypt, Encryptor.seal, sealChunks_eq, Workers.map,
    if_neg (Int.not_lt.2 single), List.reverse_nil, List.nil_append]

theorem sealed_of_forall₂ {key : CipherKey} {position : Nat} {pieces : List Bytes}
    {chunks : List Chunk}
    (h : List.Forall₂ (fun (item : Bytes × Nat) chunk ↦ ∃ nonce, chunk =
      ⟨item.2, SealedBlock.encrypt key nonce [] item.1, Sha256.hex item.1⟩)
      (pieces.zipIdx position) chunks) : Sealed key position pieces chunks := by
  induction pieces generalizing position chunks with
  | nil =>
    cases h
    exact .nil
  | cons piece pieces ih =>
    cases h with
    | cons first others =>
      obtain ⟨nonce, rfl⟩ := first
      exact .cons nonce piece (ih others)

theorem sealed_map (w : Workers) (key : CipherKey) (nonces : NonceSupply) (pieces : List Bytes) :
    Sealed key 0 pieces (w.map (sealPiece key) nonces pieces.zipIdx).1 := by
  apply sealed_of_forall₂
  exact w.forall₂_map (fun nonces _ _ ↦ ⟨nonces.draw.1, rfl⟩) nonces

namespace Encryptor

variable {e : Encryptor} {w : Workers} {data : Bytes} {fileId : Text} {nonces left : NonceSupply}
  {createdAt : DateTime} {c : Container}

theorem encryptBy_eq_ok (h : e.encryptBy w data fileId nonces createdAt = .ok (c, left)) :
    ∃ key chunks, e.keyFor data fileId = .ok key ∧
      Sealed key 0 (ShardVault.chunks e.chunkSize data) chunks ∧
      c = e.assemble data fileId chunks createdAt := by
  obtain ⟨key, hkey, h⟩ := bind_eq_ok.1 h
  obtain ⟨rfl, -⟩ := Prod.mk.inj (Except.ok.inj h)
  exact ⟨key, _, hkey, sealed_map w key nonces _, rfl⟩

theorem exists_encryptBy (w : Workers) (nonces : NonceSupply) (createdAt : DateTime)
    {key : CipherKey} (h : e.keyFor data fileId = .ok key) :
    ∃ chunks left, Sealed key 0 (ShardVault.chunks e.chunkSize data) chunks ∧
      e.encryptBy w data fileId nonces createdAt =
        .ok (e.assemble data fileId chunks createdAt, left) :=
  ⟨_, _, sealed_map w key nonces _, bind_eq_ok.2 ⟨key, h, rfl⟩⟩

def least : Encryptor :=
  ⟨⟨.fixed ⟨List.replicate 32 1, rfl⟩, defaultKeyInfo⟩, 2, Nat.two_pos⟩

theorem exists_encryptBy_least (data : Bytes) (fits : data.length ≤ maxFileSize) :
    ∃ key chunks left, least.deriver.fileKey "f" = .ok key ∧
      Sealed key 0 (ShardVault.chunks least.chunkSize data) chunks ∧
      least.encryptBy .backward data "f" (.counting 0 true) .epoch =
        .ok (least.assemble data "f" chunks .epoch, left) := by
  have scalar : Text.isScalar "f" = true := by decide
  obtain ⟨key, hkey⟩ := least.exists_keyFor rfl scalar fits
  obtain ⟨chunks, left, hs, encrypts⟩ :=
    exists_encryptBy .backward (.counting 0 true) .epoch hkey
  exact ⟨key, chunks, left, (keyFor_eq_ok_iff.1 hkey).2, hs, encrypts⟩

end Encryptor

end Container

end ShardVault
