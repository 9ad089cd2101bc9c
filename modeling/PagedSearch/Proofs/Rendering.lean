import PagedSearch.Proofs.Parameters
import PagedSearch.Proofs.Printing

/-!
# How compiled filters are printed

A composed text is printed piece by piece: every marker becomes what it stands for, and all else is
kept.  Its markers and literals stand between breaks, so no neighbours clash, and no space comes
between a word and a marker.

## Main results

* `printText_composed` — composed texts are printed piece by piece.
* `compileFilter_renders` — compiled filters are printed piece by piece, for every database.
-/

namespace PagedSearch

open Search

variable {ω : Type}

/-! ### Neighbours in composed texts -/

section Composed

variable {backend : Backend} {piece : Marker} {c : Char}

theorem Marker.Apart.separate {next : Marker} (h : piece.Apart next) : piece.Separate next := by
  cases piece with
  | literal text =>
    cases next with
    | literal other => exact absurd h.1 (by simp [isChar, isBreak])
    | _ => exact .inr rfl
  | _ => exact .inl rfl

theorem endsMark_of_isBreak (h : Reading.isBreak c = true) : endsMark backend c = true := by
  simp only [Reading.isBreak, Bool.or_eq_true, beq_iff_eq] at h
  rcases h with ((rfl | rfl) | rfl) | rfl <;> cases backend <;> decide

/-- A break in front of an argument wants no space. -/
theorem Marker.wantsSpace_of_isBreak (h : piece.isBreak = true) : piece.wantsSpace = false := by
  cases piece with
  | char c =>
    simp only [isBreak, Reading.isBreak, Bool.or_eq_true, beq_iff_eq] at h
    rcases h with ((rfl | rfl) | rfl) | rfl <;> decide
  | _ => cases h

/-- A piece does not clash with a character that stands apart from it. -/
theorem Marker.Apart.clashes_eq_false (h : piece.Apart (.char c)) (hc : (char c).IsWritten)
    (inside : Bool) : piece.clashes backend inside c = false := by
  have hends (hpiece : piece.isChar = false) : endsMark backend c = true :=
    endsMark_of_isBreak (h.1.resolve_left (by rw [hpiece]; exact Bool.false_ne_true))
  cases piece with
  | char d =>
    have hmark : c ≠ backend.mark := by
      rintro rfl
      cases backend <;> exact hc (by decide)
    simp [clashes, hmark]
  | _ => simp [clashes, hends rfl]

theorem clashesFrom_of_apart {previous : Option Marker} {inside : Bool} {pieces : List Marker}
    (hwritten : ∀ piece ∈ pieces, piece.IsWritten) (hchain : pieces.IsChain Marker.Apart)
    (hprevious : ∀ piece ∈ previous, ∀ next ∈ pieces.head?, piece.Apart next) :
    clashesFrom backend previous inside pieces = false := by
  induction pieces generalizing previous inside with
  | nil => rfl
  | cons first rest ih =>
    obtain ⟨hfirst, hrest⟩ := List.forall_mem_cons.mp hwritten
    rw [List.isChain_cons] at hchain
    have hmore (inside : Bool) : clashesFrom backend (some first) inside rest = false :=
      ih hrest hchain.2 (by rintro piece ⟨⟩; exact hchain.1)
    cases first with
    | char c =>
      rw [clashesFrom, hmore, Bool.or_false]
      cases previous with
      | none => rfl
      | some piece => exact (hprevious piece rfl _ rfl).clashes_eq_false hfirst inside
    | _ => exact hmore false

theorem spacedFrom_of_apart {previous : Option Marker} {pieces : List Marker}
    (hchain : pieces.IsChain Marker.Apart)
    (hprevious : ∀ piece ∈ previous, ∀ next ∈ pieces.head?, piece.Apart next) :
    spacedFrom previous pieces = pieces := by
  induction pieces generalizing previous with
  | nil => rfl
  | cons first rest ih =>
    rw [List.isChain_cons] at hchain
    have hspace : (first.isArgument && previous.any Marker.wantsSpace) = false := by
      cases previous with
      | none => exact Bool.and_false _
      | some piece =>
        rcases (hprevious piece rfl _ rfl).2 with hchar | hbreak
        · cases first with
          | char c => rfl
          | _ => cases hchar
        · rw [Option.any_some, Marker.wantsSpace_of_isBreak hbreak, Bool.and_false]
    rw [spacedFrom, hspace, ih hchain.2 (by rintro piece ⟨⟩; exact hchain.1)]
    rfl

end Composed

/-! ### Composed texts -/

/-- **A composed text is printed piece by piece**, if all values that it refers to are there.  The
numbers of arguments are read as numbers below 2⁶⁴, so the text has to be shorter than that. -/
theorem printText_composed (backend : Backend) {text : String} {params : Params}
    (h : Composed text.toList)
    (hparams : ∀ name ∈ placeholders text.toList, (params.get? name).isSome = true)
    (hlength : text.length < 2 ^ 64) :
    ∃ chunks, printText backend text params = .ok chunks ∧
      (∀ count, Chunk.textFrom backend count chunks =
        renderFrom backend count (markers text.toList)) ∧
      (Chunk.values chunks).map some = (placeholders text.toList).map params.get? := by
  have hprevious : ∀ piece ∈ (none : Option Marker), ∀ next ∈ (markers text.toList).head?,
      piece.Apart next := by simp
  have hprints := printText_markers backend (fun piece hpiece => (h.written piece hpiece).isPlain)
    (h.apart.imp fun _ _ hapart => hapart.separate) (clashesFrom_of_apart h.written h.apart hprevious)
    hparams hlength
  rwa [spacedFrom_of_apart h.apart hprevious] at hprints

/-- **A compiled filter is printed piece by piece**, for every database.  No value is missing; each
column is written with its quotes, the places of the values are marked, numbered in their order
where the database wants that, and all else is kept as it is.  The values are those of the places,
in this order.  Only a text of 2⁶⁴ characters or more, which no memory holds, would have more
arguments than numbers for them. -/
theorem compileFilter_renders {context : Context ω} {list : AllowList} {s t : Session ω}
    {filter : String} {fragment : Fragment} (hnames : context.HasPlainNames)
    (hfunctions : context.functions = .standard) (hcache : s.cache.IsSound)
    (hrun : outcome (compileFilter context list.resolver filter) s = (.ok fragment, t))
    {sql : String} {params : Params} (hbuild : fragment.build .empty = (sql, params))
    (hlength : sql.length < 2 ^ 64) (backend : Backend) :
    (markers sql.toList).flatMap Marker.source = sql.toList ∧
      ∃ chunks, printText backend sql params = .ok chunks ∧
        (∀ count, Chunk.textFrom backend count chunks =
          renderFrom backend count (markers sql.toList)) ∧
        (Chunk.values chunks).map some = (placeholders sql.toList).map params.get? := by
  obtain ⟨groups, leaves, -, -, -, -, hbinds⟩ :=
    compileFilter_binds hnames hfunctions hcache hrun
  rw [Fragment.build_empty] at hbuild
  obtain ⟨rfl, rfl⟩ := Prod.mk.inj hbuild
  refine ⟨hbinds.composed.source_eq, printText_composed backend hbinds.composed ?_ hlength⟩
  intro name hname
  rw [hbinds.params_eq, Params.isSome_get?_ofList, ← hbinds.mem_placeholders]
  exact hname

/-- A path into a document and a pattern, for a database that numbers its marks. -/
theorem samplePath_renders :
    ∃ fragment t chunks,
      outcome (compileFilter scatteredContext (AllowList.resolver ⟨[.named "body.a"]⟩)
        "body.a ~ 'x'") sampleSession = (.ok fragment, t) ∧
      printText .postgres fragment.text fragment.params = .ok chunks ∧
      Chunk.textFrom .postgres 0 chunks =
        "JSON_EXTRACT(\"body\", '$.a') LIKE $1 ESCAPE '\\'".toList ∧
      (Chunk.values chunks).map some = [some (.text "x")] := by
  have hok : (outcome (compileFilter scatteredContext (AllowList.resolver ⟨[.named "body.a"]⟩)
      "body.a ~ 'x'") sampleSession).1.isOk = true := by decide +kernel
  have htext : (outcome (compileFilter scatteredContext
      (AllowList.resolver ⟨[.named "body.a"]⟩) "body.a ~ 'x'") sampleSession).1.map
        (fun fragment => (fragment.text, fragment.params)) =
      .ok ("JSON_EXTRACT([[body]], '$.a') LIKE {:p0000000007} ESCAPE '\\'",
        .single "p0000000007" (.text "x")) := by decide +kernel
  obtain ⟨fragment, t, hrun⟩ := exists_of_isOk hok
  rw [hrun] at htext
  obtain ⟨hsql, hparams⟩ := Prod.mk.inj (Except.ok.inj htext)
  have hlength : fragment.text.length < 2 ^ 64 := by
    rw [hsql]
    decide +kernel
  obtain ⟨-, chunks, hchunks, hprinted, hvalues⟩ := compileFilter_renders
    scatteredContext_hasPlainNames rfl (Cache.isSound_empty 8) hrun fragment.build_empty hlength
    .postgres
  refine ⟨fragment, t, chunks, hrun, hchunks, ?_, ?_⟩
  · rw [hprinted, hsql]
    decide +kernel
  · rw [hvalues, hsql, hparams]
    decide +kernel

end PagedSearch
