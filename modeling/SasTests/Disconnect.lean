import SasTests.RecvLoop

/-!
# When `disconnect` disconnects

`disconnect` awaits the receive task before it closes the connection. If that task ended with an
exception of its own, the exception comes out of `disconnect`: `_recv_task` and `_ws` stay, and the
connection stays open. `disconnects_iff` says for every run when that is: as soon as a frame that is
not harmless has been received, until the next `connect`.
-/

namespace SasTests

open Python

/-- `disconnect` returns, with `_recv_task` and `_ws` set to `None` and the connection closed. -/
structure WSClient.Disconnects (c : WSClient) : Prop where
  returns : c.disconnect.raised = none
  recvTask : c.disconnect.client.recvTask = none
  ws : c.disconnect.client.ws = none
  closed : c.disconnect.closed = c.ws

/-- The receive task ended with an exception. -/
def WSClient.RecvFailed (c : WSClient) : Prop := ∃ e, c.recvTask = some (.failed e)

theorem WSClient.disconnects_iff_not_recvFailed (c : WSClient) :
    c.Disconnects ↔ ¬ c.RecvFailed := by
  constructor
  · rintro ⟨hreturns, -, -, -⟩ ⟨e, he⟩
    simp only [disconnect, he, reduceCtorEq] at hreturns
  · intro h
    have heq : c.disconnect = ⟨{ c with recvTask := none, ws := none }, c.ws, none⟩ := by
      rw [disconnect]
      split
      · rename_i e he
        exact absurd ⟨e, he⟩ h
      · rfl
    exact ⟨by rw [heq], by rw [heq], by rw [heq], by rw [heq]⟩

namespace Loop

/-- Every frame received since the last `connect` is harmless. -/
def HarmlessSinceConnect (ls : List Label) : Prop :=
  ∀ pre loaded now post, ls = pre ++ .receive loaded now :: post →
    (∀ conn, .connect conn ∉ post) → HarmlessLoaded loaded

/-- Has the receive task failed after the step `l`, if `before` says whether it had failed before?
-/
def Label.failedAfter (l : Label) (before : Prop) : Prop :=
  match l with
  | .connect _ => False
  | .receive loaded _ => before ∨ ¬ HarmlessLoaded loaded
  | _ => before

theorem not_harmlessSinceConnect_concat {ls : List Label} {l : Label} :
    ¬ HarmlessSinceConnect (ls ++ [l]) ↔ l.failedAfter (¬ HarmlessSinceConnect ls) := by
  -- a frame other than the last step stands in `ls`
  have hbefore : HarmlessSinceConnect (ls ++ [l]) ↔
      ((∃ conn, l = .connect conn) ∨ HarmlessSinceConnect ls) ∧
        ∀ loaded now, l = .receive loaded now → HarmlessLoaded loaded := by
    constructor
    · intro h
      refine ⟨or_iff_not_imp_left.mpr fun hl pre loaded now post hls hpost => ?_,
        fun loaded now hreceive => ?_⟩
      · refine h pre loaded now (post ++ [l]) (by rw [hls]; simp) fun conn hmem => ?_
        rcases List.mem_append.mp hmem with hmem | hmem
        · exact hpost conn hmem
        · exact hl ⟨conn, (List.mem_singleton.mp hmem).symm⟩
      · exact h ls loaded now [] (by rw [hreceive]) fun conn => List.not_mem_nil
    · rintro ⟨h, hlast⟩ pre loaded now post hls hpost
      rcases List.eq_nil_or_concat post with rfl | ⟨post, x, rfl⟩
      · obtain ⟨-, hl⟩ := List.append_inj' hls rfl
        exact hlast loaded now (List.singleton_inj.mp hl)
      · rw [List.concat_eq_append, ← List.cons_append, ← List.append_assoc] at hls
        obtain ⟨hls', hx⟩ := List.append_inj' hls rfl
        obtain rfl := List.singleton_inj.mp hx
        rcases h with ⟨conn, rfl⟩ | h
        · exact absurd (by simp) (hpost conn)
        · exact h pre loaded now post hls' fun conn hmem => hpost conn (by simp [hmem])
  rw [hbefore]
  cases l with
  | receive loaded now => simp [Label.failedAfter, imp_iff_or_not, or_comm]
  | _ => simp [Label.failedAfter]

/-- What one step makes of the receive task. -/
theorem step_recvFailed {s s' : Loop} {l : Label} (h : s.step l = some s') :
    s'.client.RecvFailed ↔ l.failedAfter s.client.RecvFailed := by
  cases hl : l.leavesConnection with
  | true =>
    have hsame : s'.client.recvTask = s.client.recvTask := congrArg Prod.snd (step_connection hl h)
    rw [WSClient.RecvFailed, hsame]
    cases l with
    | connect | disconnect | peerClosed | receive => cases hl
    | _ => exact Iff.rfl
  | false =>
    cases step_cases h with
    | connect => exact iff_of_false (by simp [WSClient.RecvFailed, WSClient.connect]) id
    | disconnect =>
      by_cases hs : s.client.RecvFailed
      · obtain ⟨e, he⟩ := id hs
        refine iff_of_true ⟨e, ?_⟩ hs
        simp only [WSClient.disconnect, he]
      · refine iff_of_false ?_ hs
        rintro ⟨e, he⟩
        rw [((s.client.disconnects_iff_not_recvFailed).mpr hs).recvTask] at he
        cases he
    | peerClosed hs =>
      exact iff_of_false (by simp [WSClient.RecvFailed])
        (by simp [Label.failedAfter, WSClient.RecvFailed, hs])
    | receive hs =>
      have hbefore : ¬ s.client.RecvFailed := by simp [WSClient.RecvFailed, hs]
      exact (receive_failed_iff hs _ _).trans (or_iff_right hbefore).symm
    | _ => cases hl

theorem recvFailed_iff {ls : List Label} {s : Loop} (h : Lts.run step new ls = some s) :
    s.client.RecvFailed ↔ ¬ HarmlessSinceConnect ls := by
  refine Lts.run_induction
    (motive := fun ls s => s.client.RecvFailed ↔ ¬ HarmlessSinceConnect ls) ?_ ?_ h
  · refine iff_of_false nofun (not_not_intro ?_)
    intro pre loaded now post hls
    cases pre <;> cases hls
  · intro ls l s s' _ ih hl
    rw [step_recvFailed hl, ih, not_harmlessSinceConnect_concat]

/-- **In every state that a run reaches, `disconnect` disconnects exactly if every frame received
since the last `connect` is harmless.** -/
theorem disconnects_iff {ls : List Label} {s : Loop} (h : Lts.run step new ls = some s) :
    s.client.Disconnects ↔ HarmlessSinceConnect ls := by
  rw [s.client.disconnects_iff_not_recvFailed, recvFailed_iff h, not_not]

/-- An empty list comes over the first connection, and what is harmless over the second. -/
def reconnecting : List Label :=
  [.connect 0, .receive (.ok (.arr [])) 1, .disconnect, .connect 1,
    .receive (.error .jsonDecodeError) 2, .receive (.ok (.obj [("type", .str "a")])) 3]

theorem disconnects_reconnecting :
    ∃ s, Lts.run step new reconnecting = some s ∧ s.client.Disconnects := by
  have hrun : Lts.run step new reconnecting = some _ := rfl
  refine ⟨_, hrun, (disconnects_iff hrun).mpr fun pre loaded now post hls hpost => ?_⟩
  -- only the last two steps have no `connect` behind them
  match pre, hls with
  | [_], hls =>
    cases hls
    exact absurd (by simp) (hpost 1)
  | [_, _, _, _], hls =>
    cases hls
    exact .inl rfl
  | [_, _, _, _, _], hls =>
    cases hls
    rfl
  | _ :: _ :: _ :: _ :: _ :: _ :: pre, hls =>
    exact absurd (congrArg List.length hls) (by simp [reconnecting])

/-- After a frame that holds an empty list, `disconnect` raises and leaves the connection open. -/
theorem disconnect_raises :
    ¬∀ (ls : List Label) (s : Loop), Lts.run step new ls = some s → s.client.Disconnects := by
  intro h
  have hdisconnects := h [.connect 0, .receive (.ok (.arr [])) 1] _ rfl
  cases hdisconnects.returns

end Loop

end SasTests
