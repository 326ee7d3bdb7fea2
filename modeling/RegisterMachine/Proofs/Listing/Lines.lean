import RegisterMachine.Listing
import RegisterMachine.Proofs.Text.Lines

namespace RegisterMachine

theorem isLine_spacedHex (bytes : List UInt8) : IsLine (spacedHex bytes) := by
  have gap : ConsistsOf (' ' :: numeralChars) " " := by decide
  have pairs : ConsistsOf (' ' :: numeralChars) (spacedHex bytes) := by
    apply consistsOf_intercalate gap
    intro part member
    obtain ⟨b, -, rfl⟩ := List.mem_map.mp member
    intro c digit
    rw [String.toList_ofList] at digit
    rcases exists_of_mem_hexPair digit with ⟨n, small, rfl⟩
    exact List.mem_cons_of_mem _ (digitChar_mem_numeralChars small)
  exact pairs.not_mem (by decide)

theorem isLine_padRight (width : Nat) {text : String} (plain : IsLine text) :
    IsLine (padRight width text) := by
  refine isLine_append.mpr ⟨plain, ?_⟩
  simp [IsLine]

namespace ListingLine

variable (l : ListingLine)

theorem isLine_text : IsLine l.text := by
  have address := isLine_hexNumeral 6 l.address
  have bytes := isLine_padRight 12 (isLine_spacedHex l.instruction.encode)
  have instruction := l.instruction.isLine_text
  unfold text
  simp only [isLine_append]
  refine ⟨⟨⟨⟨address, ?_⟩, bytes⟩, ?_⟩, instruction⟩
  all_goals decide

theorem text_ne_empty : l.text ≠ "" := by
  have gap : toString " " ≠ "" := by decide
  simp [text, gap]

end ListingLine

variable {bytes : Array UInt8} {ip stop : Int}

theorem listing_of_instructionAt {i : Instruction} (before : ip < stop)
    (read : instructionAt bytes ip = .ok i) :
    listing bytes ip stop = ⟨ip, i⟩ :: listing bytes (ip + i.size) stop := by
  rw [listing, if_pos before, read]

theorem listing_of_error {e : Error} (unread : instructionAt bytes ip = .error e) :
    listing bytes ip stop = [] := by
  rw [listing, unread]
  simp

theorem linesOf_disassemble (bytes : Array UInt8) (start stop : Int) :
    linesOf (disassemble bytes start stop) = (listing bytes start stop).map ListingLine.text := by
  apply linesOf_intercalate
  · simpa using fun l _ => l.text_ne_empty
  · simpa using fun l _ => l.isLine_text

end RegisterMachine
