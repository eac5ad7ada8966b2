import OfferAnswer.Proofs.Rtcp.Format

/-!
# The wire format of a bandwidth estimate

The body of an estimate has a sender, a media source that nobody reads, the mark, a count of
sources, the bit rate and the sources. The rate is a mantissa of 18 bits and an exponent of six,
packed in three bytes. `EstimateFields` are the fields of a body, and reading inverts the format in
which `EstimateFields.bytes` writes them, whatever follows.

## Rates beyond 64 bits

A mantissa of 18 bits and an exponent of up to 63 make rates of up to 81 bits, and 64 are kept. The
guard on the shift asks whether the exponent is 64 or more, which it never is, and so a rate that
does not fit loses its high bits and is not the greatest rate. `oversized_read` has the smallest
mantissa for which the greatest exponent does so.
-/

namespace OfferAnswer

/-! ## Words -/

namespace Bytes

/-- The four bytes of a word, most significant first. -/
def ofWord (w : UInt32) : Bytes :=
  [UInt8.ofNat (w.toNat / 16777216), UInt8.ofNat (w.toNat / 65536), UInt8.ofNat (w.toNat / 256),
    UInt8.ofNat w.toNat]

@[simp] theorem length_ofWord (w : UInt32) : (ofWord w).length = 4 := rfl

theorem word_ofWord (w : UInt32) (tail : Bytes) : word (ofWord w ++ tail) = w := by
  have hw := w.toNat_lt
  apply UInt32.toNat_inj.mp
  rw [ofWord, List.cons_append, List.cons_append, List.cons_append, List.cons_append, word_eq]
  simp only [UInt32.toNat_ofNat', UInt8.toNat_ofNat']
  omega

theorem wordAt_append (front bs : Bytes) : wordAt (front ++ bs) front.length = word bs := by
  rw [wordAt, List.drop_left]

theorem length_flatMap_ofWord (ws : List UInt32) : (ws.flatMap ofWord).length = 4 * ws.length := by
  induction ws with
  | nil => rfl
  | cons w ws ih =>
    rw [List.flatMap_cons, List.length_append, ih, length_ofWord, List.length_cons]
    omega

theorem map_wordAt (front : Bytes) (ws : List UInt32) (tail : Bytes) :
    (List.range ws.length).map
      (fun i ↦ wordAt (front ++ (ws.flatMap ofWord ++ tail)) (front.length + 4 * i)) = ws := by
  induction ws generalizing front with
  | nil => rfl
  | cons w ws ih =>
    -- the words behind the first have it in front of them
    have hrest := ih (front ++ ofWord w)
    rw [List.length_append, length_ofWord] at hrest
    rw [List.length_cons, List.range_succ_eq_map, List.map_cons, List.map_map, List.flatMap_cons]
    refine List.cons_eq_cons.mpr ⟨?_, ?_⟩
    · rw [Nat.mul_zero, Nat.add_zero, wordAt_append, List.append_assoc, word_ofWord]
    · refine Eq.trans (List.map_congr_left fun i _ ↦ ?_) hrest
      simp only [Function.comp_apply, List.append_assoc]
      congr 1
      omega

end Bytes

/-! ## Fields -/

/-- The fields of the body of an estimate. -/
structure EstimateFields where
  /-- The source of the estimating side. -/
  sender : Ssrc
  /-- The media source, which is not used. -/
  media : Ssrc
  /-- The mantissa of the rate. -/
  mantissa : BitVec 18
  /-- The exponent of the rate. -/
  exponent : BitVec 6
  /-- The sources that the estimate applies to. -/
  ssrcs : List Ssrc
  /-- Their number fits a byte. -/
  length_le : ssrcs.length ≤ 255

namespace EstimateFields

/-- The rate that mantissa and exponent make. -/
def rate (x : EstimateFields) : Nat := x.mantissa.toNat * 2 ^ x.exponent.toNat

/-- The bytes up to the list of sources. -/
def front (x : EstimateFields) : Bytes :=
  Bytes.ofWord x.sender ++ Bytes.ofWord x.media ++ BandwidthEstimate.mark ++
    [UInt8.ofNat x.ssrcs.length, UInt8.ofNat (x.exponent.toNat * 4 + x.mantissa.toNat / 65536),
      UInt8.ofNat (x.mantissa.toNat / 256), UInt8.ofNat x.mantissa.toNat]

/-- The body that has the fields. -/
def bytes (x : EstimateFields) : Bytes := x.front ++ x.ssrcs.flatMap Bytes.ofWord

variable (x : EstimateFields) (tail : Bytes)

theorem length_front : x.front.length = 16 := rfl

theorem isMarked_bytes : BandwidthEstimate.isMarked (x.bytes ++ tail) = true := by
  simp [BandwidthEstimate.isMarked, bytes, front, Bytes.ofWord, BandwidthEstimate.mark]

theorem count_bytes : ((x.bytes ++ tail).getD 12 0).toNat = x.ssrcs.length := by
  have hlength := x.length_le
  have hcount : (x.bytes ++ tail).getD 12 0 = UInt8.ofNat x.ssrcs.length := rfl
  rw [hcount, UInt8.toNat_ofNat']
  omega

/-- The three bytes of the rate hold all bits of mantissa and exponent. -/
theorem rate_bytes :
    (((x.bytes ++ tail).getD 13 0).toNat % 4 * 65536 + ((x.bytes ++ tail).getD 14 0).toNat * 256 +
      ((x.bytes ++ tail).getD 15 0).toNat) * 2 ^ (((x.bytes ++ tail).getD 13 0).toNat / 4) =
    x.rate := by
  have hmantissa := x.mantissa.isLt
  have hexponent := x.exponent.isLt
  have hscale : ((x.bytes ++ tail).getD 13 0).toNat =
      x.exponent.toNat * 4 + x.mantissa.toNat / 65536 := by
    change (UInt8.ofNat _).toNat = _
    rw [UInt8.toNat_ofNat']
    omega
  have hmiddle : ((x.bytes ++ tail).getD 14 0).toNat = x.mantissa.toNat / 256 % 256 :=
    UInt8.toNat_ofNat'
  have hlow : ((x.bytes ++ tail).getD 15 0).toNat = x.mantissa.toNat % 256 := UInt8.toNat_ofNat'
  rw [hscale, hmiddle, hlow, rate]
  congr 2 <;> omega

theorem ssrcs_bytes : (List.range x.ssrcs.length).map
    (fun i ↦ (x.bytes ++ tail).bigEndian (16 + 4 * i)) = x.ssrcs := by
  have hwords := Bytes.map_wordAt x.front x.ssrcs tail
  rw [length_front, ← List.append_assoc] at hwords
  have hlength : (x.bytes ++ tail).length = 16 + 4 * x.ssrcs.length + tail.length := by
    rw [bytes, List.length_append, List.length_append, Bytes.length_flatMap_ofWord, length_front]
  refine Eq.trans (List.map_congr_left fun i hi ↦ ?_) hwords
  have hi := List.mem_range.mp hi
  exact (Bytes.wordAt_eq (by omega)).symm

/-- The fields are read back from the body that has them, except that the rate is kept in 64
bits. -/
theorem read_bytes : BandwidthEstimate.read (x.bytes ++ tail) =
    .ok ⟨x.sender, UInt64.ofNat x.rate, x.ssrcs⟩ := by
  have hlength : (x.bytes ++ tail).length = 16 + 4 * x.ssrcs.length + tail.length := by
    rw [bytes, List.length_append, List.length_append, Bytes.length_flatMap_ofWord, length_front]
  have hfits : 16 + 4 * ((x.bytes ++ tail).getD 12 0).toNat ≤ (x.bytes ++ tail).length := by
    rw [count_bytes]
    omega
  have hsender : (x.bytes ++ tail).bigEndian 0 = x.sender :=
    (Bytes.wordAt_eq (by omega)).symm.trans (Bytes.word_ofWord x.sender _)
  rw [(needs_estimate _ (x.isMarked_bytes tail)).1 hfits, BandwidthEstimate.ofBody, rate_bytes,
    count_bytes, ssrcs_bytes, hsender]

end EstimateFields

/-! ## Rates -/

/-- A rate that does not fit 64 bits is even, and what is kept of it is not the greatest rate. -/
theorem EstimateFields.toNat_rate_eq_min_iff (x : EstimateFields) :
    (UInt64.ofNat x.rate).toNat = min x.rate (2 ^ 64 - 1) ↔ x.rate < 2 ^ 64 := by
  rw [UInt64.toNat_ofNat']
  constructor
  · intro hkept
    refine Decidable.byContradiction fun hbig ↦ ?_
    have hmantissa := x.mantissa.isLt
    have heven : ∃ half, x.rate = 2 * half := by
      cases hexponent : x.exponent.toNat with
      | zero =>
        rw [rate, hexponent] at hbig
        omega
      | succ k => exact ⟨x.mantissa.toNat * 2 ^ k, by
          rw [rate, hexponent, Nat.pow_succ, Nat.mul_comm (2 ^ k), Nat.mul_left_comm]⟩
    obtain ⟨half, hhalf⟩ := heven
    omega
  · intro hfits
    omega

namespace BandwidthEstimate

/-- A body is refused if it is too short, if the mark is missing, or if sources are. -/
theorem exists_read_eq_error_iff (body : Bytes) : (∃ e, read body = .error e) ↔
    body.length < 16 ∨ (body.drop 8).take 4 ≠ mark ∨
      body.length < 16 + 4 * (body.getD 12 0).toNat := by
  by_cases hshort : body.length < 16
  · exact iff_of_true ⟨_, by rw [read, if_pos hshort]⟩ (.inl hshort)
  · by_cases hmark : (body.drop 8).take 4 = mark
    · have hmarked : isMarked body = true := by
        have hlong : 12 ≤ body.length := by omega
        simp [isMarked, hlong, hmark]
      have hneeds := needs_estimate body hmarked
      by_cases hfits : 16 + 4 * (body.getD 12 0).toNat ≤ body.length
      · refine iff_of_false ?_ ?_
        · rintro ⟨e, he⟩
          rw [hneeds.1 hfits] at he
          cases he
        · exact not_or.mpr ⟨hshort, not_or.mpr ⟨fun hne ↦ hne hmark, Nat.not_lt.mpr hfits⟩⟩
      · exact iff_of_true (hneeds.2 hfits) (.inr (.inr (Nat.not_le.mp hfits)))
    · have hunmarked : isMarked body = false := by simp [isMarked, hmark]
      refine iff_of_true ⟨.missingMark, ?_⟩ (.inr (.inl hmark))
      rw [read, if_neg hshort, hunmarked]
      rfl

/-- **Reading inverts the wire format, except for the rates that do not fit.** The body that has
some fields, whatever follows it, is read as the sender and the sources, and the rate modulo 2 ^ 64.
That is the rate, or the greatest one if it does not fit, exactly if it does fit. A body is refused
exactly if it is too short, if the mark is missing, or if announced sources are. -/
theorem read_inverts_format (x : EstimateFields) (tail body : Bytes) :
    (∃ bitrate : UInt64, read (x.bytes ++ tail) = .ok ⟨x.sender, bitrate, x.ssrcs⟩ ∧
      bitrate.toNat = x.rate % 2 ^ 64 ∧
      (bitrate.toNat = min x.rate (2 ^ 64 - 1) ↔ x.rate < 2 ^ 64)) ∧
    ((∃ e, read body = .error e) ↔ body.length < 16 ∨ (body.drop 8).take 4 ≠ mark ∨
      body.length < 16 + 4 * (body.getD 12 0).toNat) := by
  refine ⟨⟨UInt64.ofNat x.rate, x.read_bytes tail, ?_, x.toNat_rate_eq_min_iff⟩, ?_⟩
  · exact UInt64.toNat_ofNat'
  · exact exists_read_eq_error_iff body

/-- A mantissa of 2 at the greatest exponent. -/
def oversized : EstimateFields where
  sender := 1
  media := 0
  mantissa := 2
  exponent := 63
  ssrcs := [5]
  length_le := by decide

/-- A rate of 2 ^ 64 is read as zero, where the greatest rate would be 2 ^ 64 - 1. -/
theorem oversized_read : oversized.rate = 2 ^ 64 ∧
    read oversized.bytes = .ok ⟨1, 0, [5]⟩ :=
  ⟨by decide, rfl⟩

end BandwidthEstimate

end OfferAnswer
