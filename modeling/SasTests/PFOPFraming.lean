import SasTests.PFOPClient
import SasTests.Python.IntGrammar
import Mathlib.Algebra.Group.Int.Defs

/-!
# What `send_mid` may write and what `recv_frame` accepts

`send_mid` fills the fields of the header up to their widths and puts no limit on them: it writes a
well-formed frame if the numbers fit, and something else otherwise. It leaves the sending to
`sendall`, which may raise after a part of the frame has been written: the socket has a timeout, and
the connection may break. `sendsFrame_iff` says for all numbers, all data and all outcomes of
`sendall` when no corrupt frame is written.

`recv_frame` drops what is not ASCII, takes an empty field for zero, and leaves the rest to `int`.
It keeps the length that the header declares and never compares it with the length of the frame.
`recvFrame_eq_ok` says exactly what it accepts.
-/

namespace SasTests

open Python

namespace PFOPClient

/-- A decimal field of the header: digits that stand for `n`. -/
def DecimalField (bytes : List UInt8) (n : ℤ) : Prop :=
  (∀ b ∈ bytes, 48 ≤ b.toNat ∧ b.toNat ≤ 57) ∧ (Nat.ofDigitChars 10 (decodeAscii bytes) 0 : ℤ) = n

/-! ## Writing -/

/-- The bytes `written` are one well-formed frame with these numbers and these data. -/
def WritesFrame (mid revision : ℤ) (data : String) (written : List UInt8) : Prop :=
  ∃ header dataBytes, written = header ++ dataBytes ++ [0] ∧
    encodeAscii data.toList = .ok dataBytes ∧ header.length = 20 ∧ 0 ∉ header ++ dataBytes ∧
    DecimalField (header.extract 0 4) (20 + dataBytes.length) ∧
    DecimalField (header.extract 4 8) mid ∧ DecimalField (header.extract 8 11) revision

/-- `send_mid` raises without having written anything, or writes one well-formed frame. -/
def SendsFrame (client : PFOPClient) (mid revision : ℤ) (data : String) (outcome : SendAll) : Prop :=
  (∃ e, client.sendMid mid revision data outcome = (.error e, client)) ∨
    ∃ sock written, client.sock = some sock ∧
      (client.sendMid mid revision data outcome).2 =
        ⟨some { sock with sent := sock.sent ++ written }⟩ ∧
      WritesFrame mid revision data written

/-- `sendall` writes at least `n` bytes, whether or not it raises behind them. -/
def SendAll.Writes (n : ℕ) : SendAll → Prop
  | all => True
  | fails wrote _ => n ≤ wrote

/-- The numbers fit the fields, and the data contain no NUL. -/
def Fits (mid revision : ℤ) (data : String) : Prop :=
  (0 ≤ mid ∧ mid ≤ 9999) ∧ (0 ≤ revision ∧ revision ≤ 999) ∧ data.length ≤ 9979 ∧
    ∀ c ∈ data.toList, c.toNat ≠ 0

/-- The number has so many digits that it is not written. -/
def TooLong (n : ℤ) : Prop := maxStrDigits < decimalDigits n

/-- The data are not ASCII, or one of the numbers has too many digits. -/
def Refused (mid revision : ℤ) (data : String) : Prop :=
  (∃ c ∈ data.toList, 128 ≤ c.toNat) ∨
    TooLong (20 + data.length : ℕ) ∨ TooLong mid ∨ TooLong revision

/-- The header that `send_mid` writes before `n` bytes of data. -/
def header (n : ℕ) (mid revision : ℤ) : List Char :=
  formatInt 4 (20 + n : ℕ) ++ formatInt 4 mid ++ formatInt 3 revision ++ List.replicate 9 ' '

/-- A number is written with digits and perhaps a sign. -/
theorem ascii_of_mem_formatInt {width : ℕ} {n : ℤ} {c : Char} (h : c ∈ formatInt width n) :
    0 < c.toNat ∧ c.toNat < 128 := by
  simp only [formatInt, List.mem_append, List.mem_replicate] at h
  rcases h with (h | ⟨-, rfl⟩) | h
  · split at h
    · obtain rfl := List.mem_singleton.mp h
      decide
    · cases h
  · decide
  · have hdigit := isDigit_iff.mp (Nat.isDigit_of_mem_toDigits (by decide) (by decide) h)
    omega

theorem ascii_of_mem_header {n : ℕ} {mid revision : ℤ} {c : Char} (h : c ∈ header n mid revision) :
    0 < c.toNat ∧ c.toNat < 128 := by
  simp only [header, List.mem_append, List.mem_replicate] at h
  rcases h with ((h | h) | h) | ⟨-, rfl⟩
  · exact ascii_of_mem_formatInt h
  · exact ascii_of_mem_formatInt h
  · exact ascii_of_mem_formatInt h
  · decide

/-- Data that can be encoded are ASCII. -/
theorem not_exists_of_encodeAscii {text : List Char} {bytes : List UInt8}
    (h : encodeAscii text = .ok bytes) : ¬∃ c ∈ text, 128 ≤ c.toNat := by
  push Not
  exact (encodeAscii_eq_ok.mp h).1

theorem length_of_encodeAscii {data : String} {dataBytes : List UInt8}
    (h : encodeAscii data.toList = .ok dataBytes) : dataBytes.length = data.length := by
  rw [← (encodeAscii_eq_ok.mp h).2, List.length_map, String.length_toList]

theorem formatDecimal_of_tooLong {n : ℤ} (h : TooLong n) (width : ℕ) :
    formatDecimal width n = .error .valueError := if_pos h

theorem formatDecimal_of_not_tooLong {n : ℤ} (h : ¬ TooLong n) (width : ℕ) :
    formatDecimal width n = .ok (formatInt width n) := if_neg h

/-- Once there are bytes to be sent, every number has been written with its digits. -/
theorem payload_digits {mid revision : ℤ} {data : String} {dataBytes : List UInt8}
    (hdata : encodeAscii data.toList = .ok dataBytes)
    (h : ¬ TooLong (20 + dataBytes.length : ℕ) ∧ ¬ TooLong mid ∧ ¬ TooLong revision) :
    payload mid revision data =
      .ok ((header dataBytes.length mid revision).map asciiByte ++ dataBytes ++ [0]) := by
  have hheader : encodeAscii (header dataBytes.length mid revision) =
      .ok ((header dataBytes.length mid revision).map asciiByte) :=
    encodeAscii_eq_ok.mpr ⟨fun _ hc => (ascii_of_mem_header hc).2, rfl⟩
  obtain ⟨hlength, hmid, hrevision⟩ := h
  rw [header] at hheader ⊢
  simp only [payload, hdata, bind, Except.bind, formatDecimal_of_not_tooLong hlength,
    formatDecimal_of_not_tooLong hmid, formatDecimal_of_not_tooLong hrevision, hheader]
  rfl

/-- A number that is too long stops `send_mid` before it has anything to send. -/
theorem payload_tooLong {mid revision : ℤ} {data : String} {dataBytes : List UInt8}
    (hdata : encodeAscii data.toList = .ok dataBytes)
    (h : TooLong (20 + dataBytes.length : ℕ) ∨ TooLong mid ∨ TooLong revision) :
    payload mid revision data = .error .valueError := by
  simp only [payload, hdata, bind, Except.bind]
  by_cases hlength : TooLong (20 + dataBytes.length : ℕ)
  · rw [formatDecimal_of_tooLong hlength]
  · rw [formatDecimal_of_not_tooLong hlength]
    by_cases hmid : TooLong mid
    · rw [formatDecimal_of_tooLong hmid]
    · have hrevision := (h.resolve_left hlength).resolve_left hmid
      rw [formatDecimal_of_not_tooLong hmid, formatDecimal_of_tooLong hrevision]

/-- `send_mid` on a connected client raises before it sends exactly if the data are not ASCII, or a
number has too many digits. -/
theorem payload_cases (mid revision : ℤ) (data : String) :
    (∃ e, payload mid revision data = .error e) ∧ Refused mid revision data ∨
      ∃ dataBytes, encodeAscii data.toList = .ok dataBytes ∧ ¬ Refused mid revision data ∧
        payload mid revision data =
          .ok ((header dataBytes.length mid revision).map asciiByte ++ dataBytes ++ [0]) := by
  rcases hdata : encodeAscii data.toList with e | dataBytes
  · refine .inl ⟨⟨e, by simp only [payload, hdata, bind, Except.bind]⟩, .inl ?_⟩
    by_contra hall
    push Not at hall
    rw [encodeAscii_eq_ok.mpr ⟨hall, rfl⟩] at hdata
    cases hdata
  · have hascii := not_exists_of_encodeAscii hdata
    rw [Refused, ← length_of_encodeAscii hdata, or_iff_right hascii]
    by_cases hlong : TooLong (20 + dataBytes.length : ℕ) ∨ TooLong mid ∨ TooLong revision
    · exact .inl ⟨⟨_, payload_tooLong hdata hlong⟩, hlong⟩
    · refine .inr ⟨dataBytes, rfl, hlong, payload_digits hdata ?_⟩
      push Not at hlong
      exact hlong

/-- The widths are minimum widths. -/
theorem le_length_formatInt (width : ℕ) (n : ℤ) : width ≤ (formatInt width n).length := by
  simp only [formatInt, List.length_append, List.length_replicate]
  omega

/-- A field of the right width that contains only digits is a number that fits. -/
theorem fits_of_digits {width : ℕ} {n : ℤ} (hw : 0 < width)
    (hlen : (formatInt width n).length = width)
    (h : ∀ b ∈ (formatInt width n).map asciiByte, 48 ≤ b.toNat ∧ b.toNat ≤ 57) :
    0 ≤ n ∧ n < 10 ^ width := by
  have hsign : 0 ≤ n := by
    by_contra hneg
    have hmem : '-' ∈ formatInt width n := by
      simp [formatInt, show n < 0 by omega]
    have := (h _ (List.mem_map_of_mem hmem)).1
    exact absurd this (by decide)
  obtain ⟨k, rfl⟩ := Int.eq_ofNat_of_zero_le hsign
  have hdigits : (Nat.toDigits 10 k).length ≤ width := by
    rw [← hlen]
    simp only [formatInt, Int.natAbs_natCast, List.length_append]
    omega
  refine ⟨hsign, ?_⟩
  exact_mod_cast (Nat.length_toDigits_le_iff (by decide) hw).mp hdigits

theorem ofDigitChars_formatInt (width n : ℕ) : Nat.ofDigitChars 10 (formatInt width n) 0 = n := by
  have hparse := parseInt_of_digits (formatInt_ne_nil width n) fun c hc =>
    isDigit_of_mem_formatInt hc
  rw [parseInt_formatInt] at hparse
  exact_mod_cast (Except.ok.inj hparse).symm

/-- A field written with the digits of `n`. -/
theorem decimalField_field (width n : ℕ) : DecimalField (WireFrame.field width n) n := by
  refine ⟨fun b hb => ?_, ?_⟩
  · obtain ⟨c, hc, rfl⟩ := List.mem_map.mp hb
    obtain ⟨h₁, h₂⟩ := isDigit_iff.mp (isDigit_of_mem_formatInt hc)
    rw [toNat_asciiByte (by omega)]
    exact ⟨h₁, h₂⟩
  · rw [WireFrame.decodeAscii_field, ofDigitChars_formatInt]

/-- The fields of the header stand in their places if each of them has its width. -/
theorem extract_header {n : ℕ} {mid revision : ℤ}
    (hlength : (formatInt 4 (20 + n : ℕ)).length = 4) (hmid : (formatInt 4 mid).length = 4)
    (hrevision : (formatInt 3 revision).length = 3) :
    ((header n mid revision).map asciiByte).extract 0 4 = (formatInt 4 (20 + n : ℕ)).map asciiByte ∧
      ((header n mid revision).map asciiByte).extract 4 8 = (formatInt 4 mid).map asciiByte ∧
      ((header n mid revision).map asciiByte).extract 8 11 =
        (formatInt 3 revision).map asciiByte := by
  have hmap : (header n mid revision).map asciiByte =
      (formatInt 4 (20 + n : ℕ)).map asciiByte ++ ((formatInt 4 mid).map asciiByte ++
        ((formatInt 3 revision).map asciiByte ++ (List.replicate 9 ' ').map asciiByte)) := by
    simp only [header, List.map_append, List.append_assoc]
  rw [hmap]
  refine ⟨?_, ?_, ?_⟩
  · exact WireFrame.extract_middle (a := []) rfl (by rw [List.length_map, hlength])
  · exact WireFrame.extract_middle (by rw [List.length_map, hlength])
      (by rw [List.length_map, hmid])
  · rw [← List.append_assoc]
    exact WireFrame.extract_middle
      (by rw [List.length_append, List.length_map, List.length_map, hlength, hmid])
      (by rw [List.length_map, hrevision])

section frame

variable {mid revision : ℤ} {data : String} {dataBytes : List UInt8}

/-- A field that is too wide makes the header longer than 20 bytes, and a sign takes the place of a
digit; a NUL in the data ends the frame. -/
theorem WritesFrame.fits (hdata : encodeAscii data.toList = .ok dataBytes)
    (h : WritesFrame mid revision data
      ((header dataBytes.length mid revision).map asciiByte ++ dataBytes ++ [0])) :
    Fits mid revision data := by
  obtain ⟨-, hbytes⟩ := encodeAscii_eq_ok.mp hdata
  have hlen := length_of_encodeAscii hdata
  obtain ⟨header', dataBytes', hwritten, hdata', hheader', hnul, hlength, hmid, hrevision⟩ := h
  obtain rfl : dataBytes = dataBytes' := Except.ok.inj (hdata.symm.trans hdata')
  obtain rfl := List.append_cancel_right (List.append_cancel_right hwritten)
  -- no field is narrower than its place, so none is wider
  have hw₁ := le_length_formatInt 4 (20 + dataBytes.length : ℕ)
  have hw₂ := le_length_formatInt 4 mid
  have hw₃ := le_length_formatInt 3 revision
  simp only [header, List.length_map, List.length_append, List.length_replicate] at hheader'
  have hfit₁ : (formatInt 4 (20 + dataBytes.length : ℕ)).length = 4 := by omega
  have hfit₂ : (formatInt 4 mid).length = 4 := by omega
  have hfit₃ : (formatInt 3 revision).length = 3 := by omega
  obtain ⟨h₁, h₂, h₃⟩ := extract_header hfit₁ hfit₂ hfit₃
  rw [h₁] at hlength
  rw [h₂] at hmid
  rw [h₃] at hrevision
  have hfit₁ := fits_of_digits (by decide) (by omega) hlength.1
  have hfit₂ := fits_of_digits (by decide) (by omega) hmid.1
  have hfit₃ := fits_of_digits (by decide) (by omega) hrevision.1
  refine ⟨by omega, by omega, by omega, fun c hc h0 => hnul (List.mem_append_right _ ?_)⟩
  rw [← hbytes, show (0 : UInt8) = asciiByte c by rw [asciiByte, h0]; rfl]
  exact List.mem_map_of_mem hc

/-- Fields that fit are as wide as they should be. -/
theorem Fits.writesFrame (hdata : encodeAscii data.toList = .ok dataBytes)
    (h : Fits mid revision data) : WritesFrame mid revision data
      ((header dataBytes.length mid revision).map asciiByte ++ dataBytes ++ [0]) := by
  obtain ⟨hascii, hbytes⟩ := encodeAscii_eq_ok.mp hdata
  have hlen := length_of_encodeAscii hdata
  obtain ⟨hmid, hrevision, hfit, hnul⟩ := h
  obtain ⟨mid, rfl⟩ := Int.eq_ofNat_of_zero_le hmid.1
  obtain ⟨revision, rfl⟩ := Int.eq_ofNat_of_zero_le hrevision.1
  have hw₁ : (formatInt 4 (20 + dataBytes.length : ℕ)).length = 4 :=
    length_formatInt (by decide) (by omega)
  have hw₂ : (formatInt 4 mid).length = 4 := length_formatInt (by decide) (by omega)
  have hw₃ : (formatInt 3 revision).length = 3 := length_formatInt (by decide) (by omega)
  obtain ⟨h₁, h₂, h₃⟩ := extract_header hw₁ hw₂ hw₃
  refine ⟨_, dataBytes, rfl, hdata, ?_, ?_, ?_, ?_, ?_⟩
  · simp only [header, List.length_map, List.length_append, hw₁, hw₂, hw₃, List.length_replicate]
  · have htext : AsciiText data :=
      fun c hc => ⟨Nat.pos_of_ne_zero (hnul c hc), hascii c hc⟩
    simp only [header, List.map_append, List.mem_append, not_or]
    refine ⟨⟨⟨⟨?_, WireFrame.notMem_field 4 mid⟩, WireFrame.notMem_field 3 revision⟩, by decide⟩,
      ?_⟩
    · exact WireFrame.notMem_field 4 (20 + dataBytes.length)
    · rw [← hbytes]
      exact notMem_asciiBytes htext
  · rw [h₁]
    exact decimalField_field 4 (20 + dataBytes.length)
  · rw [h₂]
    exact decimalField_field 4 mid
  · rw [h₃]
    exact decimalField_field 3 revision

theorem writesFrame_iff (hdata : encodeAscii data.toList = .ok dataBytes) :
    WritesFrame mid revision data
        ((header dataBytes.length mid revision).map asciiByte ++ dataBytes ++ [0]) ↔
      Fits mid revision data :=
  ⟨WritesFrame.fits hdata, Fits.writesFrame hdata⟩

theorem Fits.length_header (hdata : encodeAscii data.toList = .ok dataBytes)
    (h : Fits mid revision data) : (header dataBytes.length mid revision).length = 20 := by
  obtain ⟨header', dataBytes', hwritten, hdata', hlength, -⟩ := h.writesFrame hdata
  obtain rfl : dataBytes = dataBytes' := Except.ok.inj (hdata.symm.trans hdata')
  obtain rfl := List.append_cancel_right (List.append_cancel_right hwritten)
  rwa [List.length_map] at hlength

/-- A well-formed frame ends with its only NUL, so what is written is none before it is complete. -/
theorem WritesFrame.lt_of_take (hdata : encodeAscii data.toList = .ok dataBytes) {n : ℕ}
    (h : WritesFrame mid revision data
      (((header dataBytes.length mid revision).map asciiByte ++ dataBytes ++ [0]).take n)) :
    (header dataBytes.length mid revision).length + dataBytes.length < n := by
  obtain ⟨header', dataBytes', hwritten, hdata', -, hnul, -⟩ := h
  obtain rfl : dataBytes = dataBytes' := Except.ok.inj (hdata.symm.trans hdata')
  by_contra hle
  rw [List.take_append_of_le_length (by simpa using hle)] at hwritten
  have hmem : (0 : UInt8) ∈ (header dataBytes.length mid revision).map asciiByte ++ dataBytes :=
    List.mem_of_mem_take (hwritten ▸ List.mem_append_right _ (List.mem_singleton_self _))
  rcases List.mem_append.mp hmem with hmem | hmem
  · obtain ⟨c, hc, hzero⟩ := List.mem_map.mp hmem
    obtain ⟨hpos, hlt⟩ := ascii_of_mem_header hc
    have hbyte := toNat_asciiByte hlt
    rw [hzero] at hbyte
    exact hpos.ne hbyte
  · exact hnul (List.mem_append_right _ hmem)

variable (hdata : encodeAscii data.toList = .ok dataBytes)
  (hpayload : payload mid revision data =
    .ok ((header dataBytes.length mid revision).map asciiByte ++ dataBytes ++ [0]))
  (sock : Socket)
include hdata hpayload

/-- On a connected client, a `sendall` that writes everything writes the header and the data. -/
theorem sendsFrame_all_iff :
    SendsFrame ⟨some sock⟩ mid revision data .all ↔ Fits mid revision data := by
  rw [← writesFrame_iff hdata]
  simp only [SendsFrame, sendMid_eq hpayload]
  constructor
  · rintro (⟨e, hraised⟩ | ⟨sock', written, hsock, hclient, hwrites⟩)
    · cases hraised
    · obtain rfl := Option.some.inj hsock
      simp only [PFOPClient.mk.injEq, Option.some.injEq, Socket.mk.injEq, true_and] at hclient
      rwa [List.append_cancel_left hclient]
  · exact fun h => .inr ⟨sock, _, rfl, rfl, h⟩

/-- A `sendall` that raises must have written nothing before, or everything. -/
theorem sendsFrame_fails_iff (wrote : ℕ) (e : PyError) :
    SendsFrame ⟨some sock⟩ mid revision data (.fails wrote e) ↔
      wrote = 0 ∨ 21 + data.length ≤ wrote ∧ Fits mid revision data := by
  have hlen := length_of_encodeAscii hdata
  simp only [SendsFrame, sendMid, hpayload]
  constructor
  · rintro (⟨e', hraised⟩ | ⟨sock', written, hsock, hclient, hwrites⟩)
    · have hsent := congrArg (Option.map Socket.sent) (congrArg (PFOPClient.sock ∘ Prod.snd) hraised)
      exact .inl (by simpa using hsent)
    · obtain rfl := Option.some.inj hsock
      simp only [PFOPClient.mk.injEq, Option.some.injEq, Socket.mk.injEq, true_and] at hclient
      obtain rfl := List.append_cancel_left hclient
      have hlt := hwrites.lt_of_take hdata
      rw [List.take_of_length_le (by simp; omega)] at hwrites
      have hfits := hwrites.fits hdata
      rw [hfits.length_header hdata] at hlt
      exact .inr ⟨by omega, hfits⟩
  · rintro (rfl | ⟨hle, hfits⟩)
    · exact .inl ⟨e, by rw [List.take_zero, List.append_nil]⟩
    · refine .inr ⟨sock, _, rfl, rfl, ?_⟩
      have hheader := hfits.length_header hdata
      rw [List.take_of_length_le (by simp; omega)]
      exact hfits.writesFrame hdata

end frame

/-- **`send_mid` raises without having written anything or writes one well-formed frame exactly if**
there is no connection, the data are not ASCII or a number has more than 4300 digits (then it raises
before it sends), or `sendall` raises before it has written a byte, or `sendall` writes all bytes of
the frame and the numbers fit and the data hold no NUL. So there are two ways to corrupt the stream:
a frame that is not well formed, and a frame of which only a part is written. -/
theorem sendsFrame_iff (client : PFOPClient) (mid revision : ℤ) (data : String)
    (outcome : SendAll) :
    SendsFrame client mid revision data outcome ↔
      client.sock = none ∨ Refused mid revision data ∨ (∃ e, outcome = .fails 0 e) ∨
        outcome.Writes (21 + data.length) ∧ Fits mid revision data := by
  rcases client with ⟨_ | sock⟩
  · simp [SendsFrame, sendMid]
  · rcases payload_cases mid revision data with
      ⟨⟨e, he⟩, hrefused⟩ | ⟨dataBytes, hdata, hwritten, hpayload⟩
    · simp [SendsFrame, sendMid, he, hrefused]
    · simp only [reduceCtorEq, hwritten, false_or]
      cases outcome with
      | all => simp [sendsFrame_all_iff hdata hpayload, SendAll.Writes]
      | fails wrote e => simp [sendsFrame_fails_iff hdata hpayload, SendAll.Writes]

/-- A MID of five digits makes the header 21 bytes long. -/
theorem wide_mid_sent :
    ¬∀ (client : PFOPClient) (mid revision : ℤ) (data : String) (outcome : SendAll),
      SendsFrame client mid revision data outcome := by
  intro h
  have hdata : encodeAscii "".toList = .ok [] := rfl
  have hfits := (sendsFrame_all_iff hdata rfl ⟨[], true, []⟩).mp (h _ 10000 1 "" .all)
  exact absurd hfits.1.2 (by decide)

/-! ## Reading -/

/-- What is left of a field stands for `n`; nothing stands for zero. -/
def FieldText (text : List Char) (n : ℤ) : Prop := text = [] ∧ n = 0 ∨ IntText text n

/-- `recv_frame` returns `frame` for the bytes `body` and a NUL. -/
structure Accepted (body : List UInt8) (frame : PFOPFrame) : Prop where
  header : 20 ≤ body.length
  length : FieldText (decodeAscii (body.extract 0 4)) frame.length
  mid : FieldText (decodeAscii (body.extract 4 8)) frame.mid
  revision : FieldText (strip (decodeAscii (body.extract 8 11))) frame.revision
  raw : frame.raw = body ++ [0]
  data : frame.data = body.drop 20

/-- `int(text) if text else 0` -/
theorem ofEmpty_eq_ok {text : List Char} {n : ℤ} :
    (if text = [] then .ok 0 else parseInt text) = (.ok n : Except PyError ℤ) ↔
      FieldText text n := by
  split
  · rename_i h
    constructor
    · intro hn
      exact .inl ⟨h, (Except.ok.inj hn).symm⟩
    · rintro (⟨-, rfl⟩ | htext)
      · rfl
      · rw [← parseInt_eq_ok, h] at htext
        cases htext
  · rename_i h
    rw [parseInt_eq_ok, FieldText]
    exact (or_iff_right fun h' => h h'.1).symm

/-- Both ways to write a default are the same. -/
theorem intOrZero_eq (text : List Char) :
    intOrZero text = if text = [] then .ok 0 else parseInt text := by
  rw [intOrZero]
  split <;> rfl

theorem parseRaw_eq_ok {body : List UInt8} {frame : PFOPFrame} :
    parseRaw (body ++ [0]) = .ok frame ↔ Accepted body frame := by
  have hdrop : (body ++ [0]).dropLast = body := List.dropLast_concat
  simp only [parseRaw]
  rw [hdrop]
  simp only [intOrZero_eq]
  constructor
  · intro h
    split at h
    · cases h
    · rename_i hlen
      obtain ⟨length, hlength, h⟩ := bind_eq_ok h
      obtain ⟨mid, hmid, h⟩ := bind_eq_ok h
      obtain ⟨revision, hrevision, h⟩ := bind_eq_ok h
      obtain rfl := Except.ok.inj h
      exact ⟨Nat.le_of_not_lt hlen, ofEmpty_eq_ok.mp hlength, ofEmpty_eq_ok.mp hmid,
        ofEmpty_eq_ok.mp hrevision, rfl, rfl⟩
  · rintro ⟨hlen, hlength, hmid, hrevision, hraw, hdata⟩
    rw [if_neg (Nat.not_lt_of_le hlen), ofEmpty_eq_ok.mpr hlength, ofEmpty_eq_ok.mpr hmid,
      ofEmpty_eq_ok.mpr hrevision, ← hraw, ← hdata]
    rfl

/-- **`recv_frame` returns a frame exactly if the stream holds a NUL and it accepts what stands
before the first one**, however the stream is cut and however it ends.

`Accepted` says what it accepts: at least the twenty bytes of a header, and in each of the three
fields that it reads nothing, or a number for `int`. The length that is declared is one of them, and
nothing relates it to the length of what was received. -/
theorem recvFrame_eq_ok (chunks : List Chunk) (closed : Bool) (sent : List UInt8)
    (frame : PFOPFrame) :
    (recvFrame ⟨some ⟨chunks, closed, sent⟩⟩).1 = .ok frame ↔
      ∃ body rest, chunks.flatMap Chunk.bytes = body ++ 0 :: rest ∧ 0 ∉ body ∧
        Accepted body frame := by
  have hloop : (recvFrame ⟨some ⟨chunks, closed, sent⟩⟩).1 =
      ofRecord closed
        ((Records.readUntil 0 (chunks.map Chunk.bytes) []).1.map (Records.upTo 0)) :=
    (recvLoop_eq closed chunks List.not_mem_nil).1
  rw [hloop, List.flatMap_def]
  rcases Records.readUntil_cases (d := 0) (chunks.map Chunk.bytes) with
    ⟨hnul, hread⟩ | ⟨out, post, hread, hmem, hflat, -⟩
  · rw [hread]
    constructor
    · nofun
    · rintro ⟨body, rest, hstream, -⟩
      exact absurd (by simp [hstream]) hnul
  · -- the loop has gathered what stands before the first NUL
    rw [hread, hflat, Records.append_cut_eq hmem]
    refine Iff.trans parseRaw_eq_ok ⟨fun h => ⟨_, _, rfl, Records.notMem_upTo out, h⟩, ?_⟩
    rintro ⟨body, rest, hstream, hbody, h⟩
    rwa [(Records.cut_inj (Records.notMem_upTo out) hbody hstream).1]

/-- A valid record as the format has it: decimal fields, blanks allowed in the revision, and the
length that the header declares. -/
def ValidRecord (frame : PFOPFrame) : Prop :=
  ∃ body, frame.raw = body ++ [0] ∧ 0 ∉ body ∧ 20 ≤ body.length ∧
    DecimalField (body.extract 0 4) frame.length ∧ DecimalField (body.extract 4 8) frame.mid ∧
    DecimalField ((body.extract 8 11).filter (· ≠ 32)) frame.revision ∧
    frame.length = body.length

/-- A header that declares 9999 bytes, and no data. -/
def longHeader : List UInt8 := "999900020010        ".toList.map asciiByte

/-- The length that a header declares is not looked at. -/
theorem wrong_length_accepted :
    ¬∀ (chunks : List Chunk) (closed : Bool) (sent : List UInt8) (frame : PFOPFrame),
      (recvFrame ⟨some ⟨chunks, closed, sent⟩⟩).1 = .ok frame → ValidRecord frame := by
  intro h
  obtain ⟨body, hraw, -, -, -, -, -, hlength⟩ :=
    h [⟨longHeader ++ [0], by decide, by decide⟩] true []
      ⟨9999, 2, 1, longHeader ++ [0], []⟩ (by decide)
  rw [← List.append_cancel_right hraw] at hlength
  exact absurd hlength (by decide)

end PFOPClient

end SasTests
