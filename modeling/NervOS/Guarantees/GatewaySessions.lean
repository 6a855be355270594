/-
When the sessions of the MCP gateway are isolated from each other, and each is closed by its
owner.
-/
import NervOS.Refinement.GatewaySessions

namespace NervOS

/-- Whatever the callers and the owners do: where each step is permitted, the sessions are owned
and isolated. -/
theorem gateway_sessions_owned {gateway : McpGateway}
    (h : mcpGateway.ReachableAlong (fun gateway op => gateway.Permits op) gateway) :
    gateway.Owned := by
  apply McpGateway.Kept.owned_sessions
  apply h.invariant
  · constructor
    case housed => constructor <;> simp [mcpGateway]
    case tasks => simp [mcpGateway]
    case shut => simp [mcpGateway]
  · intro before op hbefore hpermits
    exact hbefore.exec hpermits

def gatewayRun (ops : List GatewayOp) : McpGateway :=
  mcpGateway.run ops mcpGateway.init

/-- A call fails, its session is closed, and the Worker shuts down. -/
def failedCall : List GatewayOp :=
  [.callTool 1 1 true, .opened 0, .resume 1, .answered 1 .raised, .leave 0, .closed 0 false,
    .resume 1, .closeAll 2]

theorem failedCall_permitted : mcpGateway.ReachableAlong
    (fun gateway op => gateway.Permits op) (gatewayRun failedCall) := by
  refine ⟨failedCall, ⟨?_, trivial, ?_, ?_, trivial, trivial, ?_, ?_, trivial⟩, rfl⟩
  · rintro session ⟨⟩
  · rintro task ⟨⟩
    trivial
  · rintro task ⟨⟩ session ⟨⟩ - newest ⟨⟩
    exact .inl rfl
  · rintro task ⟨⟩ owner ⟨⟩
    refine ⟨nofun, fun _ => ⟨nofun, fun _ hother => ?_⟩⟩
    exact absurd rfl hother
  · intro _
    refine ⟨rfl, ?_⟩
    intro owner howner
    obtain rfl := List.mem_singleton.mp howner
    simp [LiveSession.Leaving]

theorem gateway_sessions_owned_failedCall :
    (gatewayRun failedCall).tasks.map GatewayTask.stage =
        [.ended .toolOutcomeUnknown, .ended .returned] ∧ (gatewayRun failedCall).Owned :=
  ⟨by decide +kernel, gateway_sessions_owned failedCall_permitted⟩

/-- The call of one connection fails while a call of another is in flight. -/
def neighbours : List GatewayOp :=
  [.callTool 1 1 true, .opened 0, .resume 1, .callTool 2 2 true, .opened 1, .resume 2,
    .answered 1 .raised]

def failedClose : List GatewayOp :=
  [.callTool 1 1 true, .opened 0, .resume 1, .answered 1 .raised, .leave 0, .closed 0 true,
    .resume 1]

/-- The Worker shuts down while a session is created. -/
def lateCreation : List GatewayOp :=
  [.callTool 1 1 true, .closeAll 2]

/-- Each of the three leaves the gateway otherwise. -/
theorem gateway_sessions_shared : ¬ (gatewayRun neighbours).Owned ∧
    ¬ (gatewayRun failedClose).Owned ∧ ¬ (gatewayRun lateCreation).Owned := by
  refine ⟨fun h => ?_, fun h => ?_, fun h => ?_⟩
  · have hbystander : ∃ owner ∈ (gatewayRun neighbours).owners, owner.bystander = true ∧
        owner.id = 1 := by decide +kernel
    have hused : ∃ task ∈ (gatewayRun neighbours).tasks, task.stage = .calling 1 := by
      decide +kernel
    obtain ⟨owner, howner, hflag, hid⟩ := hbystander
    obtain ⟨task, htask, hstage⟩ := hused
    exact h.unharmed owner howner hflag ⟨task, htask, by rw [hstage, hid]; rfl⟩
  · have hended : ∃ task ∈ (gatewayRun failedClose).tasks, task.failed = true ∧
        task.stage = .ended .closeFailed := by decide +kernel
    obtain ⟨task, htask, hraised, hstage⟩ := hended
    cases h.unknown task htask hraised _ hstage
  · have hleft : [0] ∈ (gatewayRun lateCreation).leftOpen := by decide +kernel
    cases h.shut _ hleft

end NervOS
