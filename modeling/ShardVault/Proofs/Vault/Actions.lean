import ShardVault.Proofs.Result
import ShardVault.Vault.Basic

namespace ShardVault

namespace Action

variable {α β : Type}

def run (action : Action α) (v : Vault) : Except Failure α × Vault :=
  ((action v).answer, (action v).vault)

@[simp] theorem run_pure (a : α) (v : Vault) : (pure a : Action α).run v = (.ok a, v) := rfl

@[simp] theorem run_ofResult (answer : Except Failure α) (v : Vault) :
    (ofResult answer).run v = (answer, v) := rfl

@[simp] theorem run_ask (question : Vault → Except Failure α) (v : Vault) :
    (ask question).run v = (question v, v) := rfl

@[simp] theorem run_tell (events : List Event) (v : Vault) : (tell events).run v = (.ok (), v) :=
  rfl

theorem run_bind_ok {action : Action α} {v v' : Vault} {a : α} (h : action.run v = (.ok a, v'))
    (next : α → Action β) : (action >>= next).run v = (next a).run v' := by
  change (action.andThen next).run v = _
  obtain ⟨ha, hv⟩ := Prod.mk.inj h
  simp only [run, andThen]
  generalize action v = reply at ha hv
  obtain ⟨answer, w, events⟩ := reply
  obtain rfl : answer = .ok a := ha
  obtain rfl : w = v' := hv
  rfl

theorem run_bind_error {action : Action α} {v v' : Vault} {failure : Failure}
    (h : action.run v = (.error failure, v')) (next : α → Action β) :
    (action >>= next).run v = (.error failure, v') := by
  change (action.andThen next).run v = _
  obtain ⟨ha, hv⟩ := Prod.mk.inj h
  simp only [run, andThen]
  generalize action v = reply at ha hv
  obtain ⟨answer, w, events⟩ := reply
  obtain rfl : answer = .error failure := ha
  obtain rfl : w = v' := hv
  rfl

theorem run_bind (action : Action α) (next : α → Action β) (v : Vault) :
    (action >>= next).run v =
      match action.run v with
      | (.ok a, v') => (next a).run v'
      | (.error failure, v') => (.error failure, v') := by
  rcases h : action.run v with ⟨a | failure, v'⟩
  · exact run_bind_error h next
  · exact run_bind_ok h next

theorem run_change (step : Vault → Except Failure (α × Vault)) (v : Vault) :
    (change step).run v =
      match step v with
      | .ok (a, after) => (.ok a, after)
      | .error failure => (.error failure, v) := by
  simp only [run, change]
  rcases step v with failure | ⟨a, after⟩ <;> rfl

theorem run_putShard (key : Text) (value : Bytes) (v : Vault) :
    (putShard key value).run v =
      match v.shards.put key value with
      | .ok shards => (.ok (), { v with shards })
      | .error failure => (.error failure, v) := by
  rw [putShard, onShards, run_change]
  cases v.shards.put key value <;> rfl

theorem run_putMetadata (key : Text) (value : Bytes) (v : Vault) :
    (putMetadata key value).run v =
      match v.metadata.put key value with
      | .ok metadata => (.ok (), { v with metadata })
      | .error failure => (.error failure, v) := by
  rw [putMetadata, onMetadata, run_change]
  cases v.metadata.put key value <;> rfl

theorem run_onIndex_ok (step : Store → Except Failure Store) {v : Vault} {P : Store → Prop}
    (h : ∀ index, v.index = some index → ∃ index', step index = .ok index' ∧ P index') :
    ∃ index, (onIndex step).run v = (.ok (), { v with index }) ∧ ∀ i, index = some i → P i := by
  rw [onIndex, run_change]
  obtain ⟨shards, metadata, index, clock, nonces⟩ := v
  cases index with
  | none => exact ⟨none, rfl, nofun⟩
  | some index =>
    obtain ⟨index', hs, hp⟩ := h index rfl
    refine ⟨some index', by simp only [hs, map_ok], ?_⟩
    intro i hi
    obtain rfl := Option.some.inj hi
    exact hp

end Action

end ShardVault
