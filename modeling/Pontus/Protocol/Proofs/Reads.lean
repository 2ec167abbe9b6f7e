import Pontus.Protocol.Proofs.Classification
import Pontus.Protocol.Proofs.Tracking
import Pontus.Protocol.SqlText

/-!
# Reads that are reads

The classifier calls a text a read by the words outside its apostrophes.  The
server reads comments, quoted names and dollar quotes as well, and finds the
statements of the text; the two agree on a text just when what the words say
holds of the statements.
-/

namespace Pontus.Protocol

open Lib

namespace SqlText

variable (u : Alphabet) (q : SqlText)

theorem extractQueryBytes_message : extractQueryBytes q.message = q.bytes := by
  have hextract : extractQueryBytes (q.frame.encode ++ []) = q.bytes :=
    extractQueryBytes_query [] rfl rfl q.unterminated
  rwa [append_nil] at hextract

def words : List Bytes := plainWords u.toUnicodeTables q.bytes

theorem readOnly_message :
    (classifyQuery u.toUnicodeTables q.message).readOnly = onlyReads (q.words u) := by
  rw [(classifyQuery_eq u q.message).1, extractQueryBytes_message]
  rfl

theorem inTransaction_message :
    (classifyQuery u.toUnicodeTables q.message).inTransaction =
      mentions beginKeywords (q.words u) := by
  rw [(classifyQuery_eq u q.message).2.1, extractQueryBytes_message]
  rfl

end SqlText

/-- **Reads are really reads**, just for the texts whose words mention no
reading keyword or a writing one, and for those the server reads from. -/
theorem classified_reads_read_iff (u : Alphabet) (q : SqlText) :
    ((classifyQuery u.toUnicodeTables q.message).readOnly = true → q.reads = true) ↔
      onlyReads (q.words u) = false ∨ q.reads = true := by
  rw [q.readOnly_message, ← not_eq_true]
  exact Decidable.imp_iff_not_or

def hiddenDelete : SqlText :=
  ⟨ascii "SELECT 1 /* it's */; DELETE FROM t", by decide +kernel, by decide +kernel⟩

def selectInto : SqlText := ⟨ascii "SELECT * INTO t2 FROM t", by decide +kernel, by decide +kernel⟩

theorem writes_classified_as_reads :
    ((classifyQuery UnicodeTables.ascii hiddenDelete.message).readOnly = true ∧
        hiddenDelete.reads = false) ∧
      (classifyQuery UnicodeTables.ascii selectInto.message).readOnly = true ∧
        selectInto.reads = false := by
  decide +kernel

end Pontus.Protocol
