import SasTests.Python.JsonRoundtrip
import SasTests.RecvLoop

/-!
# The messages on the wire

`send` writes a message as a JSON text in which characters beyond ASCII stand for themselves, and
`_recv_loop` reads JSON texts. `send_receive` says that the two fit: whoever reads what `send` wrote
as `_recv_loop` does has the message, so the text says everything about it.
-/

namespace SasTests

open Python JsonEncoder

/-- What is written on the connection. -/
def Wire.encode (number : ℚ → List Char) : Wire → List Char
  | .json message => dumps false number message
  | .text s => s.toList

theorem loads_not_json (maxDepth : ℕ) (text : List Char) :
    loads maxDepth (.str (String.ofList ('d' :: text))) = .error .jsonDecodeError := by
  have hscan : JsonDecoder.scanOnce maxDepth ('d' :: text) = .error .jsonDecodeError :=
    JsonDecoder.scanOnce_atom maxDepth (by decide) (by decide) text
  have hbom : ('d' :: text).head? ≠ some (Char.ofNat 0xFEFF) := by
    rw [List.head?_cons]
    decide
  rw [loads, String.toList_ofList, if_neg hbom, JsonDecoder.decode,
    JsonDecoder.skipWs_cons (by decide), hscan]
  rfl

/-- What a call writes as bare text is no JSON: it is the request for the system parameters. -/
theorem loads_outgoing_text (maxDepth : ℕ) {c : Call} {s : String} (h : .text s ∈ c.outgoing) :
    loads maxDepth (.str (String.ofList s.toList)) = .error .jsonDecodeError := by
  have hs : s = "data:request:system_params" := by
    cases c with
    | request => cases List.mem_singleton.mp h
    | requestAny => cases List.mem_singleton.mp h
    | burstSameResponse messages t timeout =>
      obtain ⟨message, -, heq⟩ := List.mem_map.mp h
      cases heq
    | getSystemParams => exact Wire.text.inj (List.mem_singleton.mp h)
    | _ => cases h
  obtain ⟨text, htext⟩ : ∃ text, s.toList = 'd' :: text := by
    rw [hs]
    exact ⟨"ata:request:system_params".toList, by decide +kernel⟩
  rw [htext]
  exact loads_not_json maxDepth text

namespace Loop

/-- **What one client writes with `send`, another reads.**

A receive loop that gets the text of a message takes the message, whatever state its client is in,
and no other message has this text. What a call writes with `send_raw`, without making JSON of it,
is read as no message at all: `json.loads` raises on it, so that it is not the text of any
message. -/
theorem send_receive {number : ℚ → List Char} {message : Json} (h : Writable number message)
    {maxDepth : ℕ} (hdepth : depth message ≤ maxDepth) :
    (∀ (s : Loop) (now : ℚ),
        s.traffic maxDepth
            (.frame (.str (String.ofList (Wire.encode number (.json message)))) now) =
          s.step (.receive (.ok message) now)) ∧
      (∀ message', Writable number message' →
        Wire.encode number (.json message') = Wire.encode number (.json message) →
          message' = message) ∧
      ∀ (c : Call) (text : String), .text text ∈ c.outgoing →
        (∀ d, loads d (.str (String.ofList (Wire.encode number (.text text)))) =
            .error .jsonDecodeError) ∧
          Wire.encode number (.text text) ≠ Wire.encode number (.json message) := by
  have hread : ∀ {m d}, Writable number m → depth m ≤ d →
      loads d (.str (String.ofList (Wire.encode number (.json m)))) = .ok m := by
    intro m d hm hd
    have hloads := loads_dumps false hm hd (.inl rfl)
    rwa [List.append_nil] at hloads
  refine ⟨fun s now => ?_, fun message' h' heq => ?_, fun c text hw => ⟨fun d => ?_, fun heq => ?_⟩⟩
  · rw [traffic, Traffic.label, hread h hdepth]
  · have hboth := hread h' (le_max_left (depth message') (depth message))
    rw [heq, hread h (le_max_right _ _)] at hboth
    exact (Except.ok.inj hboth).symm
  · exact loads_outgoing_text d hw
  · have hload := hread h hdepth
    rw [← heq] at hload
    cases (loads_outgoing_text maxDepth hw).symm.trans hload

/-- A message of two fields, one of them a number. -/
def optionsRequest : Json := .obj [("type", .str "spec_options_get"), ("id", .num 115)]

theorem send_receive_optionsRequest :
    ∃ s s', Lts.run step new [.connect 0] = some s ∧
      s.traffic 1 (.frame (.str (String.ofList
        (Wire.encode (fun q => formatInt 0 q.num) (.json optionsRequest)))) 0) = some s' ∧
      s'.log = [.received ⟨0, optionsRequest⟩] := by
  have hwritable : Writable (fun q => formatInt 0 q.num) optionsRequest := by
    rw [optionsRequest, Writable, writableFields_iff]
    refine ⟨by decide, fun p hp => ?_⟩
    rcases List.mem_cons.mp hp with rfl | hp
    · trivial
    · obtain rfl := List.mem_singleton.mp hp
      exact denotes_formatInt 115 (by decide)
  have h : Lts.run step new [.connect 0] = some _ := rfl
  exact ⟨_, _, h, (send_receive hwritable (by decide)).1 _ 0, rfl⟩

end Loop

end SasTests
