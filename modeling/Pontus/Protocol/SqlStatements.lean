import Pontus.Protocol.PlainWords
import Pontus.Protocol.SqlText

/-!
# Statements that name tables

The statements the cache has to know the tables of, with the text a client
writes for each and the tables it reads and writes.  Expressions are texts.
-/

namespace Pontus.Protocol

open Lib

structure PlainIdent where
  name : Bytes
  starts : name.head?.any Sql.isNameStart = true
  parts : name.all Sql.isNamePart = true

structure QuotedIdent where
  name : Bytes
  nonempty : name ≠ []
  unterminated : 0 ∉ name

inductive Ident
  | plain (ident : PlainIdent)
  | quoted (ident : QuotedIdent)

namespace Ident

def text : Ident → Bytes
  | plain ident => ident.name
  | quoted ident =>
    '"'.toUInt8 :: (ident.name.flatMap fun b =>
      if b = '"'.toUInt8 then [b, b] else [b]) ++ ['"'.toUInt8]

def folded : Ident → Bytes
  | plain ident => ident.name.map Sql.lower
  | quoted ident => ident.name

end Ident

structure TableName where
  schema : Option Ident
  table : Ident

namespace TableName

def text (t : TableName) : Bytes :=
  match t.schema with
  | some schema => schema.text ++ ascii "." ++ t.table.text
  | none => t.table.text

/-- How the table is listed: by what its schema and name stand for, however
they are written. -/
def entry (u : UnicodeTables) (t : TableName) : Bytes :=
  match t.schema with
  | some schema => toLower u (schema.folded ++ ascii "." ++ t.table.folded)
  | none => toLower u t.table.folded

end TableName

def spaced (parts : List Bytes) : Bytes := (ascii " ").intercalate parts

def optionally (c : Bool) (keyword : String) : List Bytes := if c then [ascii keyword] else []

structure Alias where
  written : Bool
  name : Ident

def Alias.parts (a : Alias) : List Bytes := optionally a.written "AS" ++ [a.name.text]

mutual

inductive Select
  | mk (list : Bytes) (items : Items) (condition : Option Bytes)

inductive Items
  | one (item : Item)
  | comma (items : Items) (item : Item)
  | join (items : Items) (item : Item) (condition : Bytes)

inductive Item
  | table (only : Bool) (name : TableName) (called : Option Alias)
  | sub (query : Select) (called : Option Alias)

end

def aliasParts (called : Option Alias) : List Bytes := (called.map Alias.parts).getD []

mutual

def Select.text : Select → Bytes
  | .mk list items condition =>
    spaced ([ascii "SELECT", list, ascii "FROM", items.text] ++
      (condition.map fun c => [ascii "WHERE", c]).getD [])

def Items.text : Items → Bytes
  | .one item => item.text
  | .comma items item => items.text ++ ascii ", " ++ item.text
  | .join items item condition =>
    spaced [items.text, ascii "JOIN", item.text, ascii "ON", condition]

def Item.text : Item → Bytes
  | .table only name called => spaced (optionally only "ONLY" ++ [name.text] ++ aliasParts called)
  | .sub query called => spaced ((ascii "(" ++ query.text ++ ascii ")") :: aliasParts called)

end

mutual

def Select.tables : Select → List TableName
  | .mk _ items _ => items.tables

def Items.tables : Items → List TableName
  | .one item => item.tables
  | .comma items item => items.tables ++ item.tables
  | .join items item _ => items.tables ++ item.tables

def Item.tables : Item → List TableName
  | .table _ name _ => [name]
  | .sub query _ => query.tables

end

inductive TableStatement
  | select (query : Select)
  | insert (table : TableName) (rest : Bytes)
  | update (only : Bool) (table : TableName) (assignments : Bytes) (items : Option Items)
  | delete (only : Bool) (table : TableName) (items : Option Items)
  | truncate (keyword : Bool) (table : TableName) (more : List TableName)
  | copy (table : TableName)
  | alter (ifExists : Bool) (table : TableName) (action : Bytes)
  | drop (ifExists : Bool) (table : TableName)

namespace TableStatement

def text : TableStatement → Bytes
  | select query => query.text
  | insert table rest => spaced [ascii "INSERT INTO", table.text, rest]
  | update only table assignments items =>
    spaced ([ascii "UPDATE"] ++ optionally only "ONLY" ++ [table.text, ascii "SET", assignments] ++
      (items.map fun items => [ascii "FROM", items.text]).getD [])
  | delete only table items =>
    spaced ([ascii "DELETE FROM"] ++ optionally only "ONLY" ++ [table.text] ++
      (items.map fun items => [ascii "USING", items.text]).getD [])
  | truncate keyword table more =>
    spaced ([ascii "TRUNCATE"] ++ optionally keyword "TABLE" ++
      [(ascii ", ").intercalate ((table :: more).map TableName.text)])
  | copy table => spaced [ascii "COPY", table.text, ascii "FROM STDIN"]
  | alter ifExists table action =>
    spaced ([ascii "ALTER TABLE"] ++ optionally ifExists "IF EXISTS" ++ [table.text, action])
  | drop ifExists table =>
    spaced ([ascii "DROP TABLE"] ++ optionally ifExists "IF EXISTS" ++ [table.text])

def tables : TableStatement → List TableName
  | select query => query.tables
  | insert table _ => [table]
  | update _ table _ items => table :: (items.map Items.tables).getD []
  | delete _ table items => table :: (items.map Items.tables).getD []
  | truncate _ table more => table :: more
  | copy table => [table]
  | alter _ table _ => [table]
  | drop _ table => [table]

end TableStatement

structure WrittenStatement where
  statement : TableStatement
  unterminated : 0 ∉ statement.text
  fits : 4 + (statement.text ++ [0]).length < 2 ^ 32

def WrittenStatement.sql (w : WrittenStatement) : SqlText :=
  ⟨w.statement.text, w.unterminated, w.fits⟩

end Pontus.Protocol
