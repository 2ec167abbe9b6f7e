import Pontus.Lib.QuotedWords
import Pontus.Protocol.Classifier

/-!
# What the classifier goes by

The tokenizer knows apostrophes and words and nothing else of SQL.  What the
classifier learns from a text is therefore told by the words that stand outside
its apostrophes, wherever else they stand: in comments, in quoted names and in
dollar-quoted bodies too.
-/

namespace Pontus.Protocol

open Lib

structure Alphabet extends UnicodeTables where
  letter_not_digit : ∀ r, isLetter r = true → isDigit r = false
  letter_not_space : ∀ r, isLetter r = true → isSpace r = false

def Alphabet.ascii : Alphabet where
  toUnicodeTables := .ascii
  letter_not_digit := fun _ h => nomatch h
  letter_not_space := fun _ h => nomatch h

def isApostrophe (c : Nat × Bytes) : Bool := c.1 == '\''.toNat

/-- Maximal runs of letters, digits, underscores and dots outside apostrophes,
each without the digits and dots it begins with. -/
def plainRuns (u : UnicodeTables) (points : List (Nat × Bytes)) : List (List (Nat × Bytes)) :=
  wordsOutside isApostrophe (fun c => isWordPart u c.1) (fun c => isNumberPart u c.1) points

def plainWords (u : UnicodeTables) (q : Bytes) : List Bytes :=
  (plainRuns u (codePoints q)).map fun run => run.flatMap Prod.snd

def folded (word : Bytes) : Bytes := word.map upperByte

def mentions (keywords words : List Bytes) : Bool :=
  words.any fun word => keywords.contains (folded word)

def isKeyword (word : Bytes) : Bool := keywordList.contains (folded word)

def keywordsAmong (words : List Bytes) : List Bytes := (words.filter isKeyword).map folded

def sharesRows (keywords : List Bytes) : Bool :=
  keywords.tails.any fun ks => [ascii "FOR", ascii "SHARE"].isPrefixOf ks

def onlyReads (words : List Bytes) : Bool :=
  mentions readKeywords words && !mentions (ascii "UPDATE" :: writeKeywords) words &&
    !sharesRows (keywordsAmong words)

def governedWords : Bool → List Bytes → List Bytes
  | _, [] => []
  | governs, word :: words =>
    if isKeyword word then governedWords (tableKeywords.contains (folded word)) words
    else if governs then word :: governedWords governs words
    else governedWords governs words

def tableEntry (u : UnicodeTables) (word : Bytes) : Bytes := toLower u (trimByte '"'.toUInt8 word)

end Pontus.Protocol
