import RegisterMachine.Proofs.Listing.Sweep

namespace RegisterMachine

variable {bytes : Array UInt8} {ip first last : Int}

theorem listing_extends (bytes : Array UInt8) (ip : Int) (later : first ≤ last) :
    listing bytes ip first <+: listing bytes ip last := by
  fun_induction listing bytes ip first with
  | case1 ip before i read ih =>
    rw [listing_of_instructionAt (Int.lt_of_lt_of_le before later) read]
    exact (List.prefix_cons_inj _).mpr ih
  | case2 => exact List.nil_prefix
  | case3 => exact List.nil_prefix

theorem linesOf_disassemble_extends (bytes : Array UInt8) (ip : Int) (later : first ≤ last) :
    linesOf (disassemble bytes ip first) <+: linesOf (disassemble bytes ip last) := by
  rw [linesOf_disassemble, linesOf_disassemble]
  exact (listing_extends bytes ip later).map ListingLine.text

theorem lt_of_instructionAt_of_zeros {size : Nat} (zeros : ∀ x, size ≤ x → bytes.getD x 0 = 0)
    (lower : 0 ≤ ip) {i : Instruction} (read : instructionAt bytes ip = .ok i) : ip < size := by
  rcases Int.eq_ofNat_of_zero_le lower with ⟨a, rfl⟩
  have inside := lt_of_code zeros (encode_of_instructionAt read).1
  omega

/-- From the zeros on, no line is left for an end address to cut off. -/
theorem listing_eq_of_zeros {size : Nat} (zeros : ∀ x, size ≤ x → bytes.getD x 0 = 0)
    (lower : 0 ≤ ip) (past : size ≤ first) (past' : size ≤ last) :
    listing bytes ip first = listing bytes ip last := by
  fun_induction listing bytes ip first with
  | case1 ip before i read ih =>
    have inside := lt_of_instructionAt_of_zeros zeros lower read
    rw [listing_of_instructionAt (Int.lt_of_lt_of_le inside past') read, ih (by omega)]
  | case2 ip before e unread => rw [listing_of_error unread]
  | case3 ip after =>
    cases read : instructionAt bytes ip with
    | ok i =>
      have inside := lt_of_instructionAt_of_zeros zeros lower read
      omega
    | error e => rw [listing_of_error read]

theorem Memory.getD_ofImage_of_le {image : Array UInt8} {a : Nat} (past : image.size ≤ a) :
    (Memory.ofImage image).toArray.getD a 0 = 0 := by
  rw [getD_toArray]
  by_cases inside : a < 4096
  · rw [byteAt_ofImage image inside]
    simp [past]
  · exact byteAt_of_le _ (Nat.not_lt.mp inside)

theorem disassemble_ofImage (image : Array UInt8) (lower : 0 ≤ ip) (past : image.size ≤ first)
    (past' : image.size ≤ last) :
    disassemble (Memory.ofImage image).toArray ip first =
      disassemble (Memory.ofImage image).toArray ip last := by
  rw [disassemble, disassemble,
    listing_eq_of_zeros (fun _ => Memory.getD_ofImage_of_le) lower past past']

theorem Memory.ofImage_append_zeros (image : Array UInt8) (k : Nat) :
    ofImage (image ++ Array.replicate k 0) = ofImage image := by
  have same : ∀ a, (image ++ Array.replicate k 0).getD a 0 = image.getD a 0 := by
    intro a
    simp only [Array.getD_eq_getD_getElem?, Array.getElem?_append]
    split
    · rfl
    · rename_i past
      simp only [Array.getElem?_replicate, Nat.not_lt.mp past, Array.getElem?_eq_none]
      split <;> rfl
  simp only [ofImage, same]

end RegisterMachine
