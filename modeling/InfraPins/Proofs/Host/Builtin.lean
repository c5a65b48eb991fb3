import InfraPins.Host.Builtin
import InfraPins.Proofs.Host.AzureDevOps
import InfraPins.Proofs.Host.GitHub
import InfraPins.Proofs.Host.GitLab
import InfraPins.Proofs.Result

namespace InfraPins

/-- An operation over a script that puts no calls into the journal. -/
def Act.Silent {α : Type} (act : Act Wire α) : Prop :=
  ∀ wire, calls (act wire).events = []

namespace Act.Silent

theorem bind {α β : Type} {first : Act Wire α} {next : α → Act Wire β} (head : Silent first)
    (rest : ∀ value, Silent (next value)) : Silent (first >>= next) := by
  intro wire
  have begun := head wire
  rw [bind_apply]
  generalize first wire = outcome at begun
  obtain ⟨result, events, left⟩ := outcome
  cases result with
  | error cause => exact begun
  | ok value =>
    rw [calls_append, rest value left, List.append_nil]
    exact begun

theorem rules : WireRules fun {α} (act : Act Wire α) => Silent act where
  pure := fun _ => rfl
  bind := bind
  report := fun _ => rfl
  log := fun _ => rfl
  expect := fun _ => rfl
  lift := fun _ => rfl
  expecting := id
  enough := fun _ => rfl

theorem send (client : Client) (draft : Client.Draft) : Silent (client.send draft) := by
  intro wire
  rw [Client.send_apply]
  rfl

end Act.Silent

namespace HostType

theorem builtin_discreet : ∀ hostType ∈ builtin, ∀ client, (hostType.host client).Discreet :=
  List.forall_mem_cons.mpr ⟨fun _ => AzureDevOps.perform_goes Act.Silent.rules id (Act.Silent.send _),
    List.forall_mem_cons.mpr ⟨fun _ => GitHub.perform_goes Act.Silent.rules id (Act.Silent.send _),
      List.forall_mem_singleton.mpr fun _ =>
        GitLab.perform_goes Act.Silent.rules id (Act.Silent.send _)⟩⟩

/-- The registry of the built-in types makes no calls, and neither do the hosts that it makes. -/
theorem registry_discreet : registry.Discreet := by
  intro entry member token base wire
  obtain ⟨hostType, inside, rfl⟩ := List.mem_map.mp member
  have opened : hostType.opener token base wire =
      ⟨(hostType.client token base).map hostType.host, [], wire⟩ := by
    rw [opener, Act.bind_apply]
    cases hostType.client token base <;> rfl
  dsimp only
  rw [opened]
  refine ⟨rfl, fun host made => ?_⟩
  obtain ⟨client, _, rfl⟩ := Result.map_eq_ok.mp made
  exact builtin_discreet hostType inside client

end HostType

end InfraPins
