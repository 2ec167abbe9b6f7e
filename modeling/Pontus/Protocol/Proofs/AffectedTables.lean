import Pontus.Protocol.Proofs.Reads
import Pontus.Protocol.SqlStatements

/-!
# Which tables are listed

A word is listed when the last keyword before it is one that names tables.  An
alias keyword, an optional word or a quoted name in between changes that, and
some statements have no such keyword at all.
-/

namespace Pontus.Protocol

open Lib

def TablesListed (u : UnicodeTables) (w : WrittenStatement) : Prop :=
  ∀ t ∈ w.statement.tables, t.entry u ∈ (classifyQuery u w.sql.message).affectedTables

instance (u : UnicodeTables) (w : WrittenStatement) : Decidable (TablesListed u w) :=
  inferInstanceAs (Decidable (∀ t ∈ w.statement.tables,
    t.entry u ∈ (classifyQuery u w.sql.message).affectedTables))

def standsGoverned (u : Alphabet) (w : WrittenStatement) (t : TableName) : Bool :=
  (governedWords false (w.sql.words u)).any fun word =>
    tableEntry u.toUnicodeTables word == t.entry u.toUnicodeTables

/-- **Affected tables are complete**, just for the statements in which each
table stands as a word behind a keyword that names tables. -/
theorem tables_listed_iff (u : Alphabet) (w : WrittenStatement) :
    TablesListed u.toUnicodeTables w ↔ ∀ t ∈ w.statement.tables, standsGoverned u w t = true := by
  have hlisted (t : TableName) :
      t.entry u.toUnicodeTables ∈
          (classifyQuery u.toUnicodeTables w.sql.message).affectedTables ↔
        standsGoverned u w t = true := by
    rw [(classifyQuery_eq u w.sql.message).2.2, SqlText.extractQueryBytes_message, standsGoverned,
      any_eq_true, mem_map]
    simp only [beq_iff_eq]
    rfl
  constructor
  · intro h t ht
    exact (hlisted t).1 (h t ht)
  · intro h t ht
    exact (hlisted t).2 (h t ht)

def plainTable (name : String) (hstarts : (ascii name).head?.any Sql.isNameStart = true)
    (hparts : (ascii name).all Sql.isNamePart = true) : TableName :=
  ⟨none, .plain ⟨ascii name, hstarts, hparts⟩⟩

def ordersTable : TableName := plainTable "orders" (by decide +kernel) (by decide +kernel)

def itemsTable : TableName := plainTable "items" (by decide +kernel) (by decide +kernel)

def quotedOrders : TableName where
  schema := some (.quoted ⟨ascii "public", by decide +kernel, by decide +kernel⟩)
  table := .quoted ⟨ascii "orders", by decide +kernel, by decide +kernel⟩

def publicOrders : TableName where
  schema := some (.plain ⟨ascii "public", by decide +kernel, by decide +kernel⟩)
  table := ordersTable.table

def selectFrom (items : Items) : TableStatement := .select (.mk (ascii "*") items none)

def truncatesOrders : WrittenStatement :=
  ⟨.truncate false ordersTable [], by decide +kernel, by decide +kernel⟩

def selectsAliased : WrittenStatement :=
  ⟨selectFrom (.comma (.one (.table false ordersTable
      (some ⟨true, .plain ⟨ascii "o", by decide +kernel, by decide +kernel⟩⟩)))
    (.table false itemsTable none)), by decide +kernel, by decide +kernel⟩

def dropsIfExists : WrittenStatement :=
  ⟨.drop true ordersTable, by decide +kernel, by decide +kernel⟩

def selectsQuoted : WrittenStatement :=
  ⟨selectFrom (.one (.table false quotedOrders none)), by decide +kernel, by decide +kernel⟩

def selectsPublic : WrittenStatement :=
  ⟨selectFrom (.one (.table false publicOrders none)), by decide +kernel, by decide +kernel⟩

theorem tables_missed :
    ¬ TablesListed .ascii truncatesOrders ∧ ¬ TablesListed .ascii selectsAliased ∧
      ¬ TablesListed .ascii dropsIfExists ∧ ¬ TablesListed .ascii selectsQuoted ∧
      TablesListed .ascii selectsPublic ∧
      (classifyQuery .ascii truncatesOrders.sql.message).affectedTables = [] ∧
      (classifyQuery .ascii selectsAliased.sql.message).affectedTables = [ascii "orders"] ∧
      (classifyQuery .ascii dropsIfExists.sql.message).affectedTables = [ascii "if"] ∧
      publicOrders.entry .ascii = quotedOrders.entry .ascii ∧
      (classifyQuery .ascii selectsPublic.sql.message).affectedTables =
        [publicOrders.entry .ascii] ∧
      (classifyQuery .ascii selectsQuoted.sql.message).affectedTables =
        [ascii "public", ascii "orders"] := by
  decide +kernel

end Pontus.Protocol
