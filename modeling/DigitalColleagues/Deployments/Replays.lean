import DigitalColleagues.Deployments.Persistence

/-!
# What an idempotency key does in a run

The replay ledger keeps the request of every call that changed something, under the
operation, the namespace, the actor and the idempotency key of the call. Whatever
happens in between, another call under that key changes nothing.

## Main results

- `recordedIn_of_effect` — a call that acts is recorded
- `keys_act_once` — a key acts once in a run
-/

namespace DigitalColleagues

open DeploymentTables

section Calls

variable {ports : HostPorts} {ctx : CallContext} {looks : ℕ → HostTables} {s t : HostTables}
  {digest : Digest} {call : Call} {answer : CallAnswer}

/-- What is recorded stays recorded. -/
theorem RecordedIn.extends (h : RecordedIn ctx digest call answer s)
    (hextends : s.deployments.Extends t.deployments) : RecordedIn ctx digest call answer t := by
  obtain ⟨row, hrow, hrecorded⟩ := h
  exact ⟨row, hextends.replays _ _ hrow, hrecorded⟩

/-- A call that does something records its request and its answer. -/
theorem recordedIn_of_effect {payload : RequestPayload}
    (hpayload : call.payload ports = .ok payload)
    (h : CallEffect ports ctx looks s (ports.requestDigest payload) call answer t) :
    RecordedIn ctx (ports.requestDigest payload) call answer t := by
  cases h with
  | registered inspected fields actor well effect =>
    exact ⟨_, (Table.find?_insert effect.replays _).trans (if_pos rfl), rfl, trivial⟩
  | changed seen fields well effect =>
    exact ⟨_, (Table.find?_insert effect.replays _).trans (if_pos rfl), rfl, trivial⟩
  | created made effect =>
    exact ⟨_, (Table.find?_insert effect.replays _).trans (if_pos rfl), rfl, trivial⟩
  | rebinding read made effect =>
    exact ⟨_, (Table.find?_insert effect.replays _).trans (if_pos rfl), rfl, trivial⟩
  | reviewed bound effect =>
    exact ⟨_, (Table.find?_insert effect.replays _).trans (if_pos rfl), rfl, trivial⟩
  | confirmed bound effect =>
    exact ⟨_, (Table.find?_insert effect.replays _).trans (if_pos rfl), rfl, trivial⟩
  | transitioned parsed starts effect =>
    obtain rfl := pure_eq_ok.mp hpayload
    cases effect with
    | refused target full haudits hreplays hresult =>
      refine ⟨_, (Table.find?_insert hreplays _).trans (if_pos rfl), rfl, _, rfl, ?_⟩
      rw [hresult.1, hresult.2]
    | applied hslot well actor checked free haudits hreplays hresult =>
      refine ⟨_, (Table.find?_insert hreplays _).trans (if_pos rfl), rfl, _, rfl, ?_⟩
      rw [hresult.1, hresult.2]

end Calls

section Runs

variable {ports : HostPorts} {s : HostState} {ctx : CallContext} {call : Call} {looks : List ℕ}
  {answer : CallAnswer} {tables : HostTables}

/-- What a call did that succeeded, in a state that extends what the call read: it is
    recorded now, and it was recorded before or it was not known. -/
theorem recordedIn_of_perform (hs : PastExtended s)
    (h : call.perform ports ctx (s.look looks) s.tables = .ok (answer, tables)) :
    ∃ payload, call.payload ports = .ok payload ∧
      RecordedIn ctx (ports.requestDigest payload) call answer tables ∧
      (tables = s.tables ∨ s.tables.deployments.replays.find? (call.replayKey ctx) = none) := by
  obtain ⟨payload, hpayload, hmove⟩ := callMove_of_perform h
  refine ⟨payload, hpayload, ?_⟩
  cases hmove with
  | replayed recorded =>
    refine ⟨?_, .inl rfl⟩
    rcases recorded with hlooked | hrecorded
    · exact hlooked.extends (look_extends hs looks 1)
    · exact hrecorded
  | performed authority fresh effect => exact ⟨recordedIn_of_effect hpayload effect, .inr fresh⟩

theorem exec_of_perform
    (h : call.perform ports ctx (s.look looks) s.tables = .ok (answer, tables)) :
    s.exec ports (.call ctx call looks) = .ok (s.advance tables) := by
  rw [HostState.exec, h]
  rfl

/-- **A key acts once in a run**: once a call succeeded, every later call of the same
    operation in the same namespace by the same actor under the same idempotency key
    raises or leaves all tables as they are, and it succeeds only for a request of the
    same digest and with the recorded result. -/
theorem keys_act_once {ctx' : CallContext} {call' : Call} {looks' : List ℕ} {answer' : CallAnswer}
    {tables' : HostTables} {t : HostState} {tr : List (Transition HostState HostAction)}
    (hs : (host ports).Reachable s)
    (h : call.perform ports ctx (s.look looks) s.tables = .ok (answer, tables))
    (hpath : (host ports).Path (s.advance tables) tr t)
    (hkey : call'.replayKey ctx' = call.replayKey ctx)
    (h' : call'.perform ports ctx' (t.look looks') t.tables = .ok (answer', tables')) :
    tables' = t.tables ∧
      (∃ payload payload', call.payload ports = .ok payload ∧ call'.payload ports = .ok payload' ∧
        ports.requestDigest payload = ports.requestDigest payload') ∧
      ∃ result, call.Recorded answer result ∧ call'.Recorded answer' result := by
  have hstep : (host ports).step s (.call ctx call looks) (s.advance tables) := exec_of_perform h
  have ht : (host ports).Reachable t := hpath.reachable (.step hs hstep)
  obtain ⟨payload, hpayload, hrecorded, -⟩ :=
    recordedIn_of_perform (pastExtended_of_reachable hs) h
  obtain ⟨row, hrow, hdigest, hresult⟩ := hrecorded.extends (extends_of_path hpath)
  obtain ⟨payload', hpayload', ⟨row', hrow', hdigest', hresult'⟩, hsame⟩ :=
    recordedIn_of_perform (pastExtended_of_reachable ht) h'
  rw [hkey] at hrow' hsame
  have hsame : tables' = t.tables := by
    refine hsame.resolve_right fun hnone => ?_
    rw [hnone] at hrow
    exact absurd hrow (by simp)
  rw [hsame] at hrow'
  obtain rfl : row = row' := Option.some.inj (hrow.symm.trans hrow')
  exact ⟨hsame, ⟨payload, payload', hpayload, hpayload', hdigest.symm.trans hdigest'⟩, row.result,
    hresult, hresult'⟩

end Runs

def sampleRegister : Call := .register (sampleRegistration [1, 1]) (stableId "key-1")

/-- Both of two calls in a row succeed. -/
def repeats (call : Call) (ctx ctx' : CallContext) (s : HostState) : Bool :=
  match call.perform sampleHostPorts ctx (s.look []) s.tables with
  | .ok (_, tables) =>
    (call.perform sampleHostPorts ctx' ((s.advance tables).look []) tables).toOption.isSome
  | .error _ => false

set_option maxRecDepth 8000 in
/-- A registration that is repeated later. -/
theorem keys_act_once_registration : ∃ s tables,
    (host sampleHostPorts).Reachable s ∧
      ∃ answer, sampleRegister.perform sampleHostPorts (sampleCaller 40) (s.look []) s.tables =
        .ok (answer, tables) ∧ tables = s.tables := by
  obtain ⟨tr, s, hpath, hs⟩ := exists_host_path sampleHostPorts sampleHostBootstrap
    (fun _ s => repeats sampleRegister (sampleCaller 30) (sampleCaller 40) s) (by decide +kernel)
  have hreachable : (host sampleHostPorts).Reachable s := hpath.reachable (.init rfl)
  unfold repeats at hs
  split at hs
  · rename_i answer tables h
    obtain ⟨⟨answer', tables'⟩, h'⟩ := Option.isSome_iff_exists.mp hs
    have h' := toOption_eq_some.mp h'
    have hkey : sampleRegister.replayKey (sampleCaller 40) =
        sampleRegister.replayKey (sampleCaller 30) := rfl
    obtain ⟨hsame, -⟩ := keys_act_once hreachable h .refl hkey h'
    have hstep : (host sampleHostPorts).step s (.call (sampleCaller 30) sampleRegister [])
        (s.advance tables) := exec_of_perform h
    exact ⟨s.advance tables, tables', hreachable.step hstep, answer', h', hsame⟩
  · exact absurd hs (by simp)

end DigitalColleagues
