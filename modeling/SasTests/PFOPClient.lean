import SasTests.Lib.Records
import SasTests.Python.Ascii

/-!
# `PFOPClient`

The client of the ASCII protocol over TCP: a frame is a header of 20 bytes, data, and a NUL. The
header holds the length of header and data, the MID and the revision as decimal numbers, and nine
bytes of flags and ids.

A connection is a `Socket`: what the coming calls of `recv(4096)` return, how the stream ends, and
what has been written. Successive calls of `recv_frame` are the readings of `Records` with the NUL
as delimiter (`recvFrames_eq`), so they return the peer's frames exactly if no chunk holds anything
behind its first NUL (`reassembly_iff`); what `send_mid` writes is read back, however it is cut
(`codec_roundTrip`).
-/

namespace SasTests

open Python

/-- What one call of `recv(4096)` returns on an open connection. -/
structure Chunk where
  /-- the bytes received -/
  bytes : List UInt8
  nonempty : bytes ≠ []
  bounded : bytes.length ≤ 4096

/-- A TCP connection. -/
structure Socket where
  /-- what the coming calls of `recv` return -/
  incoming : List Chunk
  /-- whether the peer closes the connection after that; if not, `recv` times out -/
  closed : Bool
  /-- the bytes written -/
  sent : List UInt8

/-- `PFOPFrame` -/
structure PFOPFrame where
  length : ℤ
  mid : ℤ
  revision : ℤ
  raw : List UInt8
  data : List UInt8
  deriving DecidableEq

/-- `PFOPClient`: its `_sock`. -/
structure PFOPClient where
  sock : Option Socket

namespace PFOPClient

/-! ## The code -/

/-- The exception of a client that has no socket. -/
def notConnected : PyError := .runtimeError "PFOP socket is not connected"

/-- The bytes that `send_mid` writes. -/
def payload (mid revision : ℤ) (data : String) : Except PyError (List UInt8) := do
  let dataBytes ← encodeAscii data.toList
  let length := 20 + dataBytes.length
  let header := (← formatDecimal 4 length) ++ (← formatDecimal 4 mid) ++
    (← formatDecimal 3 revision) ++ List.replicate 9 ' '
  let headerBytes ← encodeAscii header
  return headerBytes ++ dataBytes ++ [0]

/-- How `sendall` ends. It hands its bytes to the connection piece by piece, and raises when the
timeout of the socket expires or the connection breaks, however many of them are written then. -/
inductive SendAll
  /-- all bytes are written -/
  | all
  /-- it raises after the first `wrote` bytes -/
  | fails (wrote : ℕ) (e : PyError)

/-- `send_mid`, whose `sendall` ends as `outcome` says. -/
def sendMid (client : PFOPClient) (mid : ℤ) (revision : ℤ := 1) (data : String := "")
    (outcome : SendAll := .all) : Except PyError Unit × PFOPClient :=
  match client.sock with
  | none => (.error notConnected, client)
  | some sock => match payload mid revision data with
    | .error e => (.error e, client)
    | .ok written => match outcome with
      | .all => (.ok (), ⟨some { sock with sent := sock.sent ++ written }⟩)
      | .fails wrote e => (.error e, ⟨some { sock with sent := sock.sent ++ written.take wrote }⟩)

/-- The loop of `recv_frame`: the bytes gathered, and the chunks still to come. -/
def recvLoop (closed : Bool) : List Chunk → List UInt8 → Except PyError (List UInt8) × List Chunk
  -- a closed connection gives an empty chunk, which ends the loop
  | [], buf => (if closed then .ok buf else .error (.timeoutError "timed out"), [])
  | chunk :: rest, buf =>
    let buf := buf ++ chunk.bytes
    if 0 ∈ chunk.bytes then (.ok buf, rest) else recvLoop closed rest buf

/-- `int(text or "0")` -/
def intOrZero (text : List Char) : Except PyError ℤ := parseInt (if text = [] then ['0'] else text)

/-- What `recv_frame` makes of the bytes `raw` of one frame. -/
def parseRaw (raw : List UInt8) : Except PyError PFOPFrame :=
  let body := raw.dropLast
  if body.length < 20 then .error (.valueErrorText "PFOP response shorter than header size")
  else do
    let length ← intOrZero (decodeAscii (body.extract 0 4))
    let mid ← intOrZero (decodeAscii (body.extract 4 8))
    let revText := strip (decodeAscii (body.extract 8 11))
    let revision ← (if revText = [] then .ok 0 else parseInt revText)
    let data := body.drop 20
    return { length, mid, revision, raw, data }

/-- What `recv_frame` makes of the bytes gathered. -/
def parseFrame (buf : List UInt8) : Except PyError PFOPFrame :=
  if buf = [] ∨ 0 ∉ buf then .error (.timeoutError "PFOP response not terminated with NUL")
  else parseRaw (buf.take (buf.idxOf 0 + 1))

/-- `recv_frame` -/
def recvFrame (client : PFOPClient) : Except PyError PFOPFrame × PFOPClient :=
  match client.sock with
  | none => (.error notConnected, client)
  | some sock =>
    let (buf, rest) := recvLoop sock.closed sock.incoming []
    (buf.bind parseFrame, ⟨some { sock with incoming := rest }⟩)

/-- `n` successive calls of `recv_frame`. -/
def recvFrames : ℕ → PFOPClient → List (Except PyError PFOPFrame)
  | 0, _ => []
  | n + 1, client => client.recvFrame.1 :: recvFrames n client.recvFrame.2

/-! ## Readings -/

/-- What `recv_frame` gives for a record, or at the end of the stream. -/
def ofRecord (closed : Bool) : Option (List UInt8) → Except PyError PFOPFrame
  | some record => parseRaw (record ++ [0])
  | none => .error (.timeoutError
      (if closed then "PFOP response not terminated with NUL" else "timed out"))

/-- What stands behind the first NUL does not matter. -/
theorem parseFrame_cut {record : List UInt8} (h : 0 ∉ record) (lost : List UInt8) :
    parseFrame (record ++ 0 :: lost) = parseRaw (record ++ [0]) := by
  have hidx : (record ++ 0 :: lost).idxOf 0 = record.length := by
    rw [List.idxOf_append_of_notMem h, List.idxOf_cons_self, Nat.add_zero]
  have htake : (record ++ 0 :: lost).take (record.length + 1) = record ++ [0] := by
    rw [List.append_cons, List.take_left' (by simp)]
  rw [parseFrame, if_neg (by simp), hidx, htake]

/-- A frame carries the bytes it was made of. -/
theorem raw_of_parseRaw {raw : List UInt8} {frame : PFOPFrame} (h : parseRaw raw = .ok frame) :
    frame.raw = raw := by
  simp only [parseRaw] at h
  split at h
  · cases h
  · obtain ⟨length, -, h⟩ := bind_eq_ok h
    obtain ⟨mid, -, h⟩ := bind_eq_ok h
    obtain ⟨revision, -, h⟩ := bind_eq_ok h
    obtain rfl := Except.ok.inj h
    rfl

/-- The loop takes the chunks of one reading. -/
theorem recvLoop_eq (closed : Bool) (chunks : List Chunk) {buf : List UInt8} (h : 0 ∉ buf) :
    (recvLoop closed chunks buf).1.bind parseFrame =
        ofRecord closed ((Records.readUntil 0 (chunks.map Chunk.bytes) buf).1.map (Records.upTo 0)) ∧
      (recvLoop closed chunks buf).2.map Chunk.bytes =
        (Records.readUntil 0 (chunks.map Chunk.bytes) buf).2 := by
  induction chunks generalizing buf with
  | nil =>
    cases closed with
    | false => exact ⟨rfl, rfl⟩
    | true =>
      -- the loop ends with a buffer that holds no NUL
      refine ⟨?_, rfl⟩
      simp [recvLoop, Except.bind, parseFrame, h, Records.readUntil, ofRecord]
  | cons chunk chunks ih =>
    by_cases hc : 0 ∈ chunk.bytes
    · simp only [recvLoop, List.map_cons, Records.readUntil, if_pos hc, and_true, Except.bind,
        Option.map_some, ofRecord]
      -- only what stands before the first NUL counts, wherever in the chunk that is
      rw [Records.cut_eq (List.mem_append_right buf hc), parseFrame_cut (Records.notMem_upTo _),
        Records.upTo_cut (Records.notMem_upTo _)]
    · simp only [recvLoop, List.map_cons, Records.readUntil, if_neg hc]
      exact ih fun h0 => (List.mem_append.mp h0).elim h hc

/-- **Successive calls of `recv_frame` are the readings of the stream's records.** -/
theorem recvFrames_eq (n : ℕ) (sock : Socket) :
    recvFrames n ⟨some sock⟩ =
      (Records.readRecords 0 n (sock.incoming.map Chunk.bytes)).map (ofRecord sock.closed) := by
  induction n generalizing sock with
  | zero => rfl
  | succ n ih =>
    obtain ⟨hframe, hrest⟩ := recvLoop_eq sock.closed sock.incoming List.not_mem_nil
    rw [recvFrames, Records.readRecords_succ, List.map_cons, ← hframe, ← hrest]
    exact congrArg _ (ih _)

end PFOPClient

/-! ## Well-formed frames -/

/-- A well-formed frame: a header of 20 bytes with decimal fields, and data without NUL. -/
structure WireFrame where
  length : ℕ
  mid : ℕ
  revision : ℕ
  /-- the nine bytes of flags and ids -/
  flags : List UInt8
  data : List UInt8
  length_lt : length < 10 ^ 4
  mid_lt : mid < 10 ^ 4
  revision_lt : revision < 10 ^ 3
  length_flags : flags.length = 9
  notMem_flags : 0 ∉ flags
  notMem_data : 0 ∉ data

namespace WireFrame

open PFOPClient

/-- A decimal field of the header. -/
def field (width n : ℕ) : List UInt8 := (formatInt width n).map asciiByte

variable (f : WireFrame)

/-- Header and data. -/
def body : List UInt8 :=
  field 4 f.length ++ (field 4 f.mid ++ (field 3 f.revision ++ (f.flags ++ f.data)))

/-- The bytes on the wire. -/
def bytes : List UInt8 := f.body ++ [0]

/-- The frame that `recv_frame` is to return. -/
def received : PFOPFrame where
  length := f.length
  mid := f.mid
  revision := f.revision
  raw := f.bytes
  data := f.data

theorem lt_of_mem_formatInt {width n : ℕ} {c : Char} (h : c ∈ formatInt width n) :
    48 ≤ c.toNat ∧ c.toNat < 128 := by
  obtain ⟨h₁, h₂⟩ := isDigit_iff.mp (isDigit_of_mem_formatInt h)
  omega

theorem length_field {width n : ℕ} (hw : 0 < width) (h : n < 10 ^ width) :
    (field width n).length = width := by
  rw [field, List.length_map, length_formatInt hw h]

theorem decodeAscii_field (width n : ℕ) : decodeAscii (field width n) = formatInt width n :=
  decodeAscii_map_asciiByte fun _ hc => (lt_of_mem_formatInt hc).2

theorem notMem_field (width n : ℕ) : 0 ∉ field width n := by
  intro h
  obtain ⟨c, hc, h0⟩ := List.mem_map.mp h
  obtain ⟨h₁, h₂⟩ := lt_of_mem_formatInt hc
  have := toNat_asciiByte h₂
  rw [h0] at this
  simp at this
  omega

theorem notMem_body : 0 ∉ f.body := by
  simp only [body, List.mem_append, not_or]
  exact ⟨notMem_field _ _, notMem_field _ _, notMem_field _ _, f.notMem_flags, f.notMem_data⟩

theorem length_body : f.body.length = 20 + f.data.length := by
  simp only [body, List.length_append, length_field (by decide) f.length_lt,
    length_field (by decide) f.mid_lt, length_field (by decide) f.revision_lt, f.length_flags]
  omega

theorem extract_middle {α : Type} {a b c : List α} {i j : ℕ} (hi : a.length = i)
    (hj : i + b.length = j) : (a ++ (b ++ c)).extract i j = b := by
  subst hi hj
  simp

theorem intOrZero_formatInt (width n : ℕ) : intOrZero (formatInt width n) = .ok n := by
  rw [intOrZero, if_neg (formatInt_ne_nil width n), parseInt_formatInt]

/-- **`recv_frame` reads a well-formed frame.** -/
theorem parseRaw_bytes : parseRaw f.bytes = .ok f.received := by
  -- the fields stand where `recv_frame` cuts them out
  have hlen₁ := length_field (by decide) f.length_lt
  have hlen₂ := length_field (by decide) f.mid_lt
  have hlen₃ := length_field (by decide) f.revision_lt
  have hlength : f.body.extract 0 4 = field 4 f.length :=
    extract_middle (a := []) rfl (by rw [hlen₁])
  have hmid : f.body.extract 4 8 = field 4 f.mid := extract_middle hlen₁ (by rw [hlen₂])
  have hrevision : f.body.extract 8 11 = field 3 f.revision := by
    rw [body, ← List.append_assoc]
    exact extract_middle (by rw [List.length_append, hlen₁, hlen₂]) (by rw [hlen₃])
  have hdata : f.body.drop 20 = f.data := by
    rw [body, ← List.append_assoc, ← List.append_assoc, ← List.append_assoc]
    apply List.drop_left'
    simp only [List.length_append, hlen₁, hlen₂, hlen₃, f.length_flags]
  have hbody : ¬f.body.length < 20 := by
    rw [length_body]
    omega
  have hdrop : f.bytes.dropLast = f.body := List.dropLast_concat
  simp only [parseRaw]
  rw [hdrop, if_neg hbody, hlength, hmid, hrevision, hdata]
  simp only [decodeAscii_field]
  rw [intOrZero_formatInt, intOrZero_formatInt, strip_formatInt,
    if_neg (formatInt_ne_nil _ _), parseInt_formatInt]
  rfl

end WireFrame

/-! ## Reassembly -/

namespace PFOPClient

/-- Only a record gives a frame. -/
theorem ofRecord_eq_received {closed : Bool} {record : Option (List UInt8)} {f : WireFrame} :
    ofRecord closed record = .ok f.received ↔ record = some f.body := by
  constructor
  · intro h
    cases record with
    | none => cases h
    | some record =>
      have hraw : f.bytes = record ++ [0] := raw_of_parseRaw h
      rw [List.append_cancel_right hraw]
  · rintro rfl
    exact f.parseRaw_bytes

theorem map_ofRecord_eq {closed : Bool} {records : List (Option (List UInt8))}
    {frames : List WireFrame} :
    records.map (ofRecord closed) = frames.map (fun f => .ok f.received) ↔
      records = (frames.map WireFrame.body).map some := by
  induction records generalizing frames with
  | nil => cases frames <;> simp
  | cons record records ih =>
    cases frames with
    | nil => simp
    | cons f frames =>
      simp only [List.map_cons, List.cons.injEq]
      exact and_congr ofRecord_eq_received ih

theorem flatMap_bytes (frames : List WireFrame) :
    frames.flatMap WireFrame.bytes = Records.join 0 (frames.map WireFrame.body) := by
  rw [Records.join, List.flatMap_map]
  rfl

/-- The frames of a stream are returned exactly if its chunks are aligned. -/
theorem recvFrames_iff_aligned {frames : List WireFrame} {chunks : List Chunk} (closed : Bool)
    (sent : List UInt8) (h : chunks.flatMap Chunk.bytes = frames.flatMap WireFrame.bytes) :
    recvFrames frames.length ⟨some ⟨chunks, closed, sent⟩⟩ = frames.map (fun f => .ok f.received) ↔
      Records.Aligned 0 (chunks.map Chunk.bytes) := by
  have hbody : ∀ r ∈ frames.map WireFrame.body, 0 ∉ r :=
    List.forall_mem_map.mpr fun f _ => f.notMem_body
  have hflat : (chunks.map Chunk.bytes).flatten = Records.join 0 (frames.map WireFrame.body) := by
    rw [← flatMap_bytes, ← h, List.flatMap_def]
  have hlen : frames.length = (frames.map WireFrame.body).length := (List.length_map ..).symm
  rw [recvFrames_eq, map_ofRecord_eq, hlen]
  exact Records.readRecords_iff_aligned hbody hflat

/-- **As many calls of `recv_frame` as there are frames return these frames exactly if no chunk
holds anything behind its first NUL.**

What a chunk holds behind its first NUL is thrown away with the rest of the buffer. Apart from that
the cuts do not matter: a chunk may end within a header, or within the data, and a frame may come in
any number of chunks. -/
theorem reassembly_iff (frames : List WireFrame) (chunks : List Chunk) (closed : Bool)
    (sent : List UInt8) (h : chunks.flatMap Chunk.bytes = frames.flatMap WireFrame.bytes) :
    recvFrames frames.length ⟨some ⟨chunks, closed, sent⟩⟩ = frames.map (fun f => .ok f.received) ↔
      ∀ c ∈ chunks, Records.after 0 c.bytes = [] :=
  (recvFrames_iff_aligned closed sent h).trans List.forall_mem_map

/-- MID 0002 with no data, as an answer to MID 0001. -/
def startAck : WireFrame where
  length := 20
  mid := 2
  revision := 1
  flags := List.replicate 9 32
  data := []
  length_lt := by decide
  mid_lt := by decide
  revision_lt := by decide
  length_flags := rfl
  notMem_flags := by decide
  notMem_data := by decide

/-- Cut within the first frame and at its end, the stream is read. -/
theorem reassembly_iff_cutInHeader :
    recvFrames 2 ⟨some ⟨[⟨startAck.bytes.take 5, by decide, by decide⟩,
      ⟨startAck.bytes.drop 5, by decide, by decide⟩, ⟨startAck.bytes, by decide, by decide⟩],
        true, []⟩⟩ = [.ok startAck.received, .ok startAck.received] :=
  (reassembly_iff [startAck, startAck] _ true [] (by decide)).mpr (by decide)

/-- Two frames in one chunk: the second is lost. -/
theorem second_frame_lost :
    ¬∀ (frames : List WireFrame) (chunks : List Chunk) (closed : Bool) (sent : List UInt8),
      chunks.flatMap Chunk.bytes = frames.flatMap WireFrame.bytes →
        recvFrames frames.length ⟨some ⟨chunks, closed, sent⟩⟩ =
          frames.map (fun f => .ok f.received) := by
  intro h
  have := h [startAck, startAck]
    [⟨startAck.bytes ++ startAck.bytes, by decide, by decide⟩] true [] (by decide)
  exact absurd this (by decide)

/-! ## Round trip -/

/-- ASCII characters other than NUL. -/
def AsciiText (data : String) : Prop := ∀ c ∈ data.toList, 0 < c.toNat ∧ c.toNat < 128

instance decidableAsciiText (data : String) : Decidable (AsciiText data) :=
  List.decidableBAll (fun c : Char => 0 < c.toNat ∧ c.toNat < 128) data.toList

theorem notMem_asciiBytes {data : String} (h : AsciiText data) :
    0 ∉ data.toList.map asciiByte := by
  intro hmem
  obtain ⟨c, hc, h0⟩ := List.mem_map.mp hmem
  obtain ⟨hpos, hlt⟩ := h c hc
  have hbyte := toNat_asciiByte hlt
  rw [h0] at hbyte
  exact absurd hbyte (Nat.ne_of_lt hpos)

/-- The frame that `send_mid` writes for numbers that fit their fields. -/
def sentFrame (mid revision : ℕ) (data : String) (hmid : mid < 10 ^ 4)
    (hrevision : revision < 10 ^ 3) (hdata : AsciiText data)
    (hlen : 20 + data.toList.length < 10 ^ 4) : WireFrame where
  length := 20 + data.toList.length
  mid := mid
  revision := revision
  flags := List.replicate 9 32
  data := data.toList.map asciiByte
  length_lt := hlen
  mid_lt := hmid
  revision_lt := hrevision
  length_flags := rfl
  notMem_flags := by decide
  notMem_data := notMem_asciiBytes hdata

/-- **`send_mid` writes a well-formed frame.** -/
theorem payload_eq {mid revision : ℕ} {data : String} (hmid : mid < 10 ^ 4)
    (hrevision : revision < 10 ^ 3) (hdata : AsciiText data)
    (hlen : 20 + data.toList.length < 10 ^ 4) :
    payload mid revision data =
      .ok (sentFrame mid revision data hmid hrevision hdata hlen).bytes := by
  have hbytes : encodeAscii data.toList = .ok (data.toList.map asciiByte) :=
    encodeAscii_eq_ok.mpr ⟨fun c hc => (hdata c hc).2, rfl⟩
  have hheader : ∀ c ∈ formatInt 4 (20 + data.toList.length : ℕ) ++ formatInt 4 mid ++
      formatInt 3 revision ++ List.replicate 9 ' ', c.toNat < 128 := by
    intro c hc
    simp only [List.mem_append, List.mem_replicate] at hc
    rcases hc with ((hc | hc) | hc) | ⟨-, rfl⟩
    · exact (WireFrame.lt_of_mem_formatInt hc).2
    · exact (WireFrame.lt_of_mem_formatInt hc).2
    · exact (WireFrame.lt_of_mem_formatInt hc).2
    · decide
  have hblanks : List.replicate 9 (32 : UInt8) = (List.replicate 9 ' ').map asciiByte := by decide
  simp only [payload, hbytes, Except.bind, bind, List.length_map]
  rw [formatDecimal_of_lt 4 hlen, formatDecimal_of_lt 4 hmid,
    formatDecimal_of_lt 3 (hrevision.trans (by decide))]
  dsimp only
  rw [encodeAscii_eq_ok.mpr ⟨hheader, rfl⟩]
  simp [WireFrame.bytes, WireFrame.body, WireFrame.field, sentFrame, hblanks, pure, Except.pure]

/-- A single frame is read, however it is cut. -/
theorem recvFrame_single (f : WireFrame) {peer : Socket}
    (h : peer.incoming.flatMap Chunk.bytes = f.bytes) :
    (recvFrame ⟨some peer⟩).1 = .ok f.received := by
  have haligned : Records.Aligned 0 (peer.incoming.map Chunk.bytes) :=
    Records.aligned_of_single f.notMem_body (by rw [← List.flatMap_def, h]; rfl)
  have hstream : peer.incoming.flatMap Chunk.bytes = [f].flatMap WireFrame.bytes := by simpa using h
  have hone := (recvFrames_iff_aligned peer.closed peer.sent hstream).mpr haligned
  exact (List.cons.inj hone).1

theorem sendMid_eq {mid revision : ℤ} {data : String} {written : List UInt8}
    (h : payload mid revision data = .ok written) (sock : Socket) :
    sendMid ⟨some sock⟩ mid revision data =
      (.ok (), ⟨some { sock with sent := sock.sent ++ written }⟩) := by
  simp only [sendMid, h]

/-- **What `send_mid` writes is read back by `recv_frame`, however it is cut, and written again.**

The numbers fit their fields, and the data are ASCII text without NUL, no longer than the length
field can say. The frame that is read has the numbers and the data that were sent, and sending these
once more writes the same bytes. -/
theorem codec_roundTrip (sock : Socket) (mid revision : ℤ) (data : String)
    (hmid : 0 ≤ mid ∧ mid ≤ 9999) (hrevision : 0 ≤ revision ∧ revision ≤ 999)
    (hdata : AsciiText data) (hlen : data.length ≤ 9979) :
    ∃ written, sendMid ⟨some sock⟩ mid revision data =
        (.ok (), ⟨some { sock with sent := sock.sent ++ written }⟩) ∧
      ∀ peer : Socket, peer.incoming.flatMap Chunk.bytes = written →
        ∃ frame, (recvFrame ⟨some peer⟩).1 = .ok frame ∧ frame.length = 20 + data.length ∧
          frame.mid = mid ∧ frame.revision = revision ∧ frame.raw = written ∧
          encodeAscii data.toList = .ok frame.data ∧
          String.ofList (decodeAscii frame.data) = data ∧
          ∀ sock' : Socket,
            sendMid ⟨some sock'⟩ frame.mid frame.revision
                (String.ofList (decodeAscii frame.data)) =
              (.ok (), ⟨some { sock' with sent := sock'.sent ++ written }⟩) := by
  obtain ⟨mid, rfl⟩ := Int.eq_ofNat_of_zero_le hmid.1
  obtain ⟨revision, rfl⟩ := Int.eq_ofNat_of_zero_le hrevision.1
  rw [← String.length_toList] at hlen
  have hmid' : mid < 10 ^ 4 := by omega
  have hrevision' : revision < 10 ^ 3 := by omega
  have hlen' : 20 + data.toList.length < 10 ^ 4 := by omega
  have hpayload := payload_eq hmid' hrevision' hdata hlen'
  have hback : String.ofList (decodeAscii (data.toList.map asciiByte)) = data := by
    rw [decodeAscii_map_asciiByte fun c hc => (hdata c hc).2, String.ofList_toList]
  refine ⟨_, sendMid_eq hpayload sock, fun peer hpeer => ?_⟩
  refine ⟨_, recvFrame_single _ hpeer, ?_, rfl, rfl, rfl, ?_, hback, fun sock' => ?_⟩
  · rw [← String.length_toList]
    rfl
  · exact encodeAscii_eq_ok.mpr ⟨fun c hc => (hdata c hc).2, rfl⟩
  · exact (congrArg (fun text => sendMid ⟨some sock'⟩ mid revision text) hback).trans
      (sendMid_eq hpayload sock')

/-- MID 0018 with a parameter set. -/
theorem codec_roundTrip_selectPset :
    ∃ written, sendMid ⟨some ⟨[], true, []⟩⟩ 18 1 "002" =
        (.ok (), ⟨some ⟨[], true, [] ++ written⟩⟩) ∧
      ∀ peer : Socket, peer.incoming.flatMap Chunk.bytes = written →
        ∃ frame, (recvFrame ⟨some peer⟩).1 = .ok frame ∧ frame.length = 23 ∧ frame.mid = 18 := by
  obtain ⟨written, hsent, hback⟩ := codec_roundTrip ⟨[], true, []⟩ 18 1 "002" (by decide)
    (by decide) (by decide) (by decide)
  refine ⟨written, hsent, fun peer hpeer => ?_⟩
  obtain ⟨frame, hframe, hlength, hmid, -⟩ := hback peer hpeer
  exact ⟨frame, hframe, hlength, hmid⟩

end PFOPClient

end SasTests
