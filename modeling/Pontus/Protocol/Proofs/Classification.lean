import Pontus.Protocol.Proofs.PlainWords

/-!
# What the classifier says, told by the plain words

One pass of `ClassifyQuery` over a word, then the whole loop: a flag is raised
by a keyword anywhere among the words, and the tables are the words behind a
keyword that names one.
-/

namespace Pontus.Protocol

open Lib

theorem keyword_lengths :
    keywordList.all (fun k => decide (k.length ≠ 0) && decide (k.length ≤ maxKeywordLen)) =
      true := by
  decide +kernel

theorem keywordOf_eq (word : Bytes) :
    keywordOf word = if isKeyword word then some (folded word) else none := by
  unfold keywordOf isKeyword
  simp only [contains_iff_mem]
  by_cases hmem : folded word ∈ keywordList
  · have hlengths := all_eq_true.1 keyword_lengths _ hmem
    rw [and_eq_true, decide_eq_true_eq, decide_eq_true_eq, folded, List.length_map] at hlengths
    have hfits : ¬(word.length = 0 ∨ maxKeywordLen < word.length) := by omega
    rw [if_neg hfits]
    rfl
  · split
    · rfl
    · exact if_neg hmem

theorem readKeywords_apart : ∀ k ∈ readKeywords, beginKeywords.contains k = false ∧
    (ascii "UPDATE" :: writeKeywords).contains k = false ∧ (k == ascii "SHARE") = false := by
  decide +kernel

theorem beginKeywords_apart : ∀ k ∈ beginKeywords,
    (ascii "UPDATE" :: writeKeywords).contains k = false ∧ (k == ascii "SHARE") = false := by
  decide +kernel

theorem share_not_writes : (ascii "UPDATE" :: writeKeywords).contains (ascii "SHARE") = false := by
  decide +kernel

structure Raised (c c' : Classification) (keyword : Bytes) : Prop where
  sawRead : c'.sawRead = (c.sawRead || readKeywords.contains keyword)
  inTransaction : c'.inTransaction = (c.inTransaction || beginKeywords.contains keyword)
  sawWrite : c'.sawWrite = (c.sawWrite || (ascii "UPDATE" :: writeKeywords).contains keyword ||
    (c.lastKeyword == ascii "FOR" && keyword == ascii "SHARE"))
  lastKeyword : c'.lastKeyword = keyword
  affectedTables : c'.affectedTables = c.affectedTables

theorem raised_classifyKeyword (c : Classification) (keyword : Bytes) :
    Raised c (classifyKeyword c keyword) keyword := by
  have hcontains {keywords : List Bytes} (h : keyword ∉ keywords) :
      keywords.contains keyword = false := by simpa using h
  unfold classifyKeyword
  by_cases hread : keyword ∈ readKeywords
  · obtain ⟨hbegin, hwrite, hshare⟩ := readKeywords_apart keyword hread
    rw [if_pos hread]
    constructor <;> simp only [contains_iff_mem.2 hread, hbegin, hwrite, hshare, Bool.or_true,
      Bool.or_false, Bool.and_false]
  rw [if_neg hread]
  have hread := hcontains hread
  by_cases hbegin : keyword ∈ beginKeywords
  · obtain ⟨hwrite, hshare⟩ := beginKeywords_apart keyword hbegin
    rw [if_pos hbegin]
    constructor <;> simp only [hread, contains_iff_mem.2 hbegin, hwrite, hshare, Bool.or_true,
      Bool.or_false, Bool.and_false]
  rw [if_neg hbegin]
  have hbegin := hcontains hbegin
  by_cases hupdate : keyword = ascii "UPDATE"
  · have hwrite : (ascii "UPDATE" :: writeKeywords).contains keyword :=
      contains_iff_mem.2 (hupdate ▸ mem_cons_self)
    rw [if_pos (.inl hupdate), if_pos (.inr hupdate)]
    constructor <;> simp only [hread, hbegin, hwrite, Bool.or_true, Bool.true_or, Bool.or_false]
  by_cases hshare : keyword = ascii "SHARE"
  · have hwrite := share_not_writes
    rw [← hshare] at hwrite
    rw [if_pos (.inr hshare)]
    by_cases hfor : c.lastKeyword = ascii "FOR"
    · rw [if_pos (.inl hfor)]
      constructor <;> simp only [hread, hbegin, beq_iff_eq.2 hfor, beq_iff_eq.2 hshare,
        Bool.or_true, Bool.or_false, Bool.and_true]
    · rw [if_neg (not_or.2 ⟨hfor, hupdate⟩)]
      constructor <;> simp only [hread, hbegin, hwrite, beq_false_of_ne hfor, Bool.or_false,
        Bool.false_and]
  rw [if_neg (not_or.2 ⟨hupdate, hshare⟩)]
  have hshare := beq_false_of_ne hshare
  by_cases hwrite : keyword ∈ writeKeywords
  · have hwrites : (ascii "UPDATE" :: writeKeywords).contains keyword :=
      contains_iff_mem.2 (mem_cons_of_mem _ hwrite)
    rw [if_pos hwrite]
    constructor <;> simp only [hread, hbegin, hwrites, Bool.or_true, Bool.true_or, Bool.or_false]
  · rw [if_neg hwrite]
    have hwrites : (ascii "UPDATE" :: writeKeywords).contains keyword = false :=
      hcontains (List.not_mem_cons_of_ne_of_not_mem hupdate hwrite)
    constructor <;> simp only [hread, hbegin, hwrites, hshare, Bool.or_false, Bool.and_false]

section
variable (u : UnicodeTables)

theorem foldl_classifyToken (c : Classification) (tokens : List Token) :
    tokens.foldl (classifyToken u) c = (tokens.filter Token.isWord).foldl (classifyToken u) c := by
  induction tokens generalizing c with
  | nil => rfl
  | cons token _ ih =>
    cases hword : token.isWord with
    | true =>
      rw [filter_cons_of_pos hword, foldl_cons, foldl_cons]
      exact ih _
    | false =>
      have hsame : classifyToken u c token = c := by
        obtain ⟨type, _⟩ := token
        cases type <;> first | rfl | cases hword
      rw [filter_cons_of_neg (by rw [hword]; exact Bool.false_ne_true), foldl_cons, hsame]
      exact ih c

structure Classified (c c' : Classification) (words : List Bytes) : Prop where
  sawRead : c'.sawRead = (c.sawRead || mentions readKeywords words)
  inTransaction : c'.inTransaction = (c.inTransaction || mentions beginKeywords words)
  sawWrite : c'.sawWrite = (c.sawWrite || mentions (ascii "UPDATE" :: writeKeywords) words ||
    sharesRows (c.lastKeyword :: keywordsAmong words))
  affectedTables : c'.affectedTables = c.affectedTables ++
    (governedWords (tableKeywords.contains c.lastKeyword) words).map (tableEntry u)

theorem sharesRows_cons_cons (k k' : Bytes) (ks : List Bytes) :
    sharesRows (k :: k' :: ks) =
      ((k == ascii "FOR" && k' == ascii "SHARE") || sharesRows (k' :: ks)) := by
  simp [sharesRows, List.isPrefixOf, Bool.beq_comm]

theorem classifier_keywords :
    ∀ ks ∈ [readKeywords, beginKeywords, ascii "UPDATE" :: writeKeywords], ∀ k ∈ ks,
      k ∈ keywordList := by
  decide +kernel

theorem mentions_cons (ks : List Bytes) (word : Bytes) (words : List Bytes) :
    mentions ks (word :: words) = (ks.contains (folded word) || mentions ks words) := rfl

theorem mentions_cons_of_not_keyword
    (hks : ks ∈ [readKeywords, beginKeywords, ascii "UPDATE" :: writeKeywords])
    (h : isKeyword word = false) (words : List Bytes) :
    mentions ks (word :: words) = mentions ks words := by
  have hnot : ks.contains (folded word) = false := by
    rw [eq_false_iff]
    intro hmem
    have hkeyword := classifier_keywords ks hks _ (contains_iff_mem.1 hmem)
    rw [isKeyword, contains_iff_mem.2 hkeyword] at h
    cases h
  rw [mentions_cons, hnot, Bool.false_or]

theorem classified_words (c : Classification) (words : List Bytes) :
    Classified u c ((words.map wordToken).foldl (classifyToken u) c) words := by
  induction words generalizing c with
  | nil =>
    constructor
    · exact (Bool.or_false _).symm
    · exact (Bool.or_false _).symm
    · simp [sharesRows, keywordsAmong, mentions, List.isPrefixOf]
    · exact (append_nil _).symm
  | cons word words ih =>
    rw [map_cons, foldl_cons]
    cases hkeyword : isKeyword word with
    | true =>
      have htoken : classifyToken u c (wordToken word) = classifyKeyword c (folded word) := by
        rw [wordToken, keywordOf_eq, if_pos hkeyword]
        rfl
      have hamong : keywordsAmong (word :: words) = folded word :: keywordsAmong words := by
        rw [keywordsAmong, filter_cons_of_pos hkeyword, map_cons]
        rfl
      have hraised := raised_classifyKeyword c (folded word)
      have hrest := ih (classifyKeyword c (folded word))
      rw [htoken]
      constructor
      · rw [hrest.sawRead, hraised.sawRead, mentions_cons, Bool.or_assoc]
      · rw [hrest.inTransaction, hraised.inTransaction, mentions_cons, Bool.or_assoc]
      · rw [hrest.sawWrite, hraised.sawWrite, hraised.lastKeyword, mentions_cons, hamong,
          sharesRows_cons_cons]
        ac_rfl
      · rw [hrest.affectedTables, hraised.affectedTables, hraised.lastKeyword, governedWords,
          if_pos hkeyword]
    | false =>
      have htoken : classifyToken u c (wordToken word) =
          if c.lastKeyword ∈ tableKeywords then
            { c with affectedTables := c.affectedTables ++ [tableEntry u word] }
          else c := by
        rw [wordToken, keywordOf_eq, if_neg (by rw [hkeyword]; exact Bool.false_ne_true)]
        rfl
      have hamong : keywordsAmong (word :: words) = keywordsAmong words := by
        rw [keywordsAmong, filter_cons_of_neg (by rw [hkeyword]; exact Bool.false_ne_true)]
        rfl
      have hskip {ks : List Bytes}
          (hks : ks ∈ [readKeywords, beginKeywords, ascii "UPDATE" :: writeKeywords]) :
          mentions ks (word :: words) = mentions ks words :=
        mentions_cons_of_not_keyword hks hkeyword words
      rw [htoken]
      by_cases hgoverns : c.lastKeyword ∈ tableKeywords
      · have hrest := ih { c with affectedTables := c.affectedTables ++ [tableEntry u word] }
        rw [if_pos hgoverns]
        constructor
        · rw [hrest.sawRead, hskip (by simp)]
        · rw [hrest.inTransaction, hskip (by simp)]
        · rw [hrest.sawWrite, hskip (by simp), hamong]
        · rw [hrest.affectedTables, governedWords,
            if_neg (by rw [hkeyword]; exact Bool.false_ne_true),
            if_pos (contains_iff_mem.2 hgoverns), map_cons, append_assoc]
          rfl
      · have hrest := ih c
        have hnot : tableKeywords.contains c.lastKeyword = false := by simpa using hgoverns
        rw [if_neg hgoverns]
        constructor
        · rw [hrest.sawRead, hskip (by simp)]
        · rw [hrest.inTransaction, hskip (by simp)]
        · rw [hrest.sawWrite, hskip (by simp), hamong]
        · rw [hrest.affectedTables, governedWords,
            if_neg (by rw [hkeyword]; exact Bool.false_ne_true),
            if_neg (by rw [hnot]; exact Bool.false_ne_true)]

end

theorem mem_firstOccurrences : t ∈ firstOccurrences tables ↔ t ∈ tables := by
  have hfold : ∀ seen : List Bytes,
      t ∈ tables.foldl (fun seen t => if t ∈ seen then seen else seen ++ [t]) seen ↔
        t ∈ seen ∨ t ∈ tables := by
    induction tables with
    | nil => simp
    | cons _ _ ih =>
      intro _
      rw [foldl_cons, ih, mem_cons]
      split
      · constructor
        · rintro (h | h)
          · exact .inl h
          · exact .inr (.inr h)
        · rintro (h | rfl | h)
          · exact .inl h
          · exact .inl ‹_›
          · exact .inr h
      · rw [mem_append, mem_singleton, or_assoc]
  rw [firstOccurrences, hfold]
  simp

section
variable (u : Alphabet) (data : Bytes)

/-- **What the classifier says of a request**, by the plain words of its text. -/
theorem classifyQuery_eq :
    let words := plainWords u.toUnicodeTables (extractQueryBytes data)
    (classifyQuery u.toUnicodeTables data).readOnly = onlyReads words ∧
      (classifyQuery u.toUnicodeTables data).inTransaction = mentions beginKeywords words ∧
      ∀ t, t ∈ (classifyQuery u.toUnicodeTables data).affectedTables ↔
        t ∈ (governedWords false words).map (tableEntry u.toUnicodeTables) := by
  unfold classifyQuery
  by_cases hempty : extractQueryBytes data = []
  · have hwords : plainWords u.toUnicodeTables [] = [] := by simp [plainWords, plainRuns]
    rw [if_pos hempty, hempty, hwords]
    exact ⟨rfl, rfl, fun t => Iff.rfl⟩
  rw [if_neg hempty]
  have hclass := classified_words u.toUnicodeTables ⟨false, false, false, [], []⟩
    (plainWords u.toUnicodeTables (extractQueryBytes data))
  rw [← filter_tokenize, ← foldl_classifyToken] at hclass
  have hfirst (ks : List Bytes) : sharesRows ([] :: ks) = sharesRows ks := by
    cases ks with
    | nil => rfl
    | cons =>
      rfl
  refine ⟨?_, ?_, ?_⟩
  · dsimp only
    rw [hclass.sawRead, hclass.sawWrite, hfirst, onlyReads, Bool.false_or, Bool.false_or,
      Bool.not_or, Bool.and_assoc]
  · dsimp only
    rw [hclass.inTransaction, Bool.false_or]
  · intro _
    rw [mem_firstOccurrences, hclass.affectedTables]
    rfl

end

end Pontus.Protocol
