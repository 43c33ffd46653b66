import ShardVault.Proofs.Vault.Actions
import ShardVault.Vault.Upload

namespace ShardVault

namespace Action

variable {α β : Type}

def KeepsTimes (action : Action α) : Prop :=
  ∀ v, (action.run v).2.clock.reading = v.clock.reading

namespace KeepsTimes

theorem ofResult (answer : Except Failure α) : (Action.ofResult answer).KeepsTimes := fun _ ↦ rfl

theorem pure (a : α) : (Pure.pure a : Action α).KeepsTimes := fun _ ↦ rfl

theorem tell (events : List Event) : (Action.tell events).KeepsTimes := fun _ ↦ rfl

theorem bind {action : Action α} {next : α → Action β} (h : action.KeepsTimes)
    (hn : ∀ a, (next a).KeepsTimes) : (action >>= next).KeepsTimes := by
  intro v
  have first := h v
  rw [run_bind]
  rcases hr : action.run v with ⟨failure | a, w⟩
  · rwa [hr] at first
  · rw [hr] at first
    exact (hn a w).trans first

theorem change {step : Vault → Except Failure (α × Vault)}
    (h : ∀ v a w, step v = .ok (a, w) → w.clock.reading = v.clock.reading) :
    (Action.change step).KeepsTimes := by
  intro v
  rw [run_change]
  rcases hs : step v with failure | ⟨a, w⟩
  · rfl
  · exact h v a w hs

theorem now : Action.now.KeepsTimes := by
  refine .change fun v time w h ↦ ?_
  obtain ⟨⟨time', clock⟩, hr, he⟩ := map_eq_ok.1 h
  obtain ⟨_, -, hc⟩ := map_eq_ok.1 hr
  obtain ⟨-, rfl⟩ := Prod.mk.inj he
  obtain ⟨-, rfl⟩ := Prod.mk.inj hc
  rfl

theorem onShards (step : Store → Except Failure (α × Store)) : (Action.onShards step).KeepsTimes := by
  refine .change fun v a w h ↦ ?_
  obtain ⟨_, -, he⟩ := map_eq_ok.1 h
  obtain ⟨-, rfl⟩ := Prod.mk.inj he
  rfl

theorem onMetadata (step : Store → Except Failure (α × Store)) :
    (Action.onMetadata step).KeepsTimes := by
  refine .change fun v a w h ↦ ?_
  obtain ⟨_, -, he⟩ := map_eq_ok.1 h
  obtain ⟨-, rfl⟩ := Prod.mk.inj he
  rfl

theorem onIndex (step : Store → Except Failure Store) : (Action.onIndex step).KeepsTimes := by
  refine .change fun v a w h ↦ ?_
  split at h
  · obtain ⟨-, rfl⟩ := Prod.mk.inj (Except.ok.inj h)
    rfl
  · obtain ⟨_, -, he⟩ := map_eq_ok.1 h
    obtain ⟨-, rfl⟩ := Prod.mk.inj he
    rfl

theorem step {action : Action α} (h : action.KeepsTimes) (u : Upload) :
    (u.step action).KeepsTimes := by
  intro v
  have same : ((u.step action).run v).2 = (action.run v).2 := by
    simp only [run, Upload.step]
    split <;> rfl
  rw [same]
  exact h v

theorem moveTo (u : Upload) (target : FileStatus) : (u.moveTo target).KeepsTimes :=
  (step (ofResult _) u).bind fun _ ↦ pure _

theorem putShards (u : Upload) (shards : List Shard) : (u.putShards shards).KeepsTimes := by
  induction shards generalizing u with
  | nil => exact pure u
  | cons shard shards ih =>
    exact (step ((ofResult _).bind fun _ ↦ onShards _) u).bind fun _ ↦ ih _

theorem encrypt (s : Settings) (data : Bytes) (fileId : Text) :
    (s.encrypt data fileId).KeepsTimes := by
  refine (ofResult _).bind fun key ↦ bind ?_ fun chunks ↦ ?_
  · refine .change fun v a w h ↦ ?_
    obtain ⟨-, rfl⟩ := Prod.mk.inj (Except.ok.inj h)
    rfl
  · exact now.bind fun time ↦ (tell _).bind fun _ ↦ pure _

theorem cut (s : Settings) (c : Container) : (s.cut c).KeepsTimes :=
  (ofResult _).bind fun _ ↦ (tell _).bind fun _ ↦ pure _

theorem store (s : Settings) (fileId : Text) (data : Bytes) (name : Text) (folder : Option Text)
    (createdAt : DateTime) : (s.store fileId data name folder createdAt).KeepsTimes := by
  refine (moveTo _ _).bind fun u ↦ ?_
  refine ((encrypt s data fileId).step u).bind fun c ↦ ?_
  refine ((cut s c).step u).bind fun shards ↦ ?_
  refine (putShards u shards).bind fun u ↦ ?_
  refine (moveTo u _).bind fun u ↦ ?_
  refine (step ?_ u).bind fun _ ↦ pure _
  exact (ofResult _).bind fun t ↦ (ofResult _).bind fun bs ↦ onMetadata _

theorem upload (s : Settings) (data : Bytes) (name : Text) (folder : Option Text) :
    (s.upload data name folder).KeepsTimes := by
  refine (ofResult _).bind fun name ↦ ?_
  refine now.bind fun createdAt ↦ ?_
  refine (ofResult _).bind fun id ↦ ?_
  refine (store s id data name folder createdAt).bind fun m ↦ ?_
  exact (onIndex _).bind fun _ ↦ (tell _).bind fun _ ↦ pure _

end KeepsTimes

end Action

end ShardVault
