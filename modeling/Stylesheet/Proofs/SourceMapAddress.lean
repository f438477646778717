import Stylesheet.CommandLine.Run
import Stylesheet.Proofs.IncludedFiles
import Stylesheet.Proofs.RelativePaths

/-! The address of a source map. The command puts the source map beside the CSS, by writing the name of the output file and
`.map`; the compiler works with paths from the root instead, and makes the address from them. Both come to the same file,
because an output file that can be written is named by a text with a name behind its last slash: whatever is written
behind the text, the directory stays. -/

namespace Stylesheet

theorem endsWith_iff {text ending : String} : text.endsWith ending = true ↔ ending.toList <:+ text.toList := by
  rw [String.endsWith, String.Slice.endsWith_string_iff, String.copy_toSlice]

namespace Path

variable {front name text : String} {before directory : List String} {current : Path}

/-- What stands behind the last slash of a text. Any other segment can stand in its place. -/
structure LastSegment (text front name : String) (before : List String) : Prop where
  text_eq : text = front ++ name
  free : '/' ∉ name.toList
  front_ends : front = "" ∨ front.endsWith "/" = true
  segments_eq : ∀ other, '/' ∉ other.toList → segments (front ++ other) = before ++ [other]

theorem exists_lastSegment (text : String) : ∃ front name before, LastSegment text front name before := by
  by_cases slash : '/' ∈ text.toList.reverse
  · obtain ⟨behind, front, same, free⟩ := List.eq_append_cons_of_mem slash
    have chars : text.toList = front.reverse ++ '/' :: behind.reverse := by
      rw [← List.reverse_reverse text.toList, same]
      simp
    refine ⟨String.ofList front.reverse ++ "/", String.ofList behind.reverse, segments (String.ofList front.reverse),
      ?_, by simpa using free, .inr ?_, fun other free => ?_⟩
    · rw [← String.toList_inj, chars]
      simp
    · rw [endsWith_iff, String.toList_append]
      exact List.suffix_append _ _
    · rw [segments_slash, segments_of_free free]
  · exact ⟨"", text, [], String.empty_append.symm, by simpa using slash, .inl rfl, fun other free => by
      rw [String.empty_append, segments_of_free free, List.nil_append]⟩

/-- A text names a file in a directory: it ends in a name, and if more is written behind that, the path goes to the same
directory. -/
structure Names (current : Path) (text : String) (directory : List String) (name : String) : Prop where
  segment : IsSegment name
  named : isName name = true
  segments : ∀ part ∈ directory, IsSegment part
  longer : ∀ ending, IsSegment (name ++ ending) → isName (name ++ ending) = true →
    current.join (ofString (text ++ ending)) = ⟨true, directory ++ [name ++ ending]⟩

/-- What a text with a name at its end is read as, and which parts stand before the name, does not hang on the name. -/
theorem LastSegment.exists_front (last : LastSegment text front name before) :
    ∃ absolute kept, (∀ part ∈ kept, IsSegment part) ∧
      ∀ other, IsSegment other → isName other = true → ofString (front ++ other) = ⟨absolute, kept ++ [other]⟩ := by
  have segment : ∀ part ∈ before, part ≠ "" → IsSegment part := by
    intro part member
    have inside : part ∈ segments (front ++ name) := by
      rw [last.segments_eq name last.free]
      exact List.mem_append_left _ member
    exact isSegment_of_mem inside
  have kept : ∀ part ∈ namedParts before, IsSegment part := by
    intro part member
    obtain ⟨inside, named⟩ := List.mem_filter.1 member
    exact segment part inside (by simpa using (Bool.and_eq_true_iff.1 named).1)
  cases before with
  | nil =>
    refine ⟨false, [], nofun, fun other free named => ?_⟩
    have pointless := (isName_iff.1 named).1
    rw [ofString_named (last.segments_eq other free.free) (fun _ => rfl) pointless]
    exact congrArg (Path.mk false) (namedParts_eq_self (List.forall_mem_singleton.2 ⟨free, pointless⟩))
  | cons first others =>
    by_cases root : first = ""
    · subst root
      refine ⟨true, namedParts others, kept, fun other free named => ?_⟩
      obtain ⟨next, more, follows⟩ := List.exists_cons_of_ne_nil (List.concat_ne_nil other others)
      have cut : segments (front ++ other) = "" :: next :: more := by
        rw [last.segments_eq other free.free, List.cons_append, follows]
      rw [ofString_rooted cut, ← follows, namedParts_concat free (isName_iff.1 named).1]
    by_cases point : first = "."
    · subst point
      refine ⟨false, "." :: namedParts others, List.forall_mem_cons.2 ⟨isSegment_point, kept⟩, fun other free named => ?_⟩
      rw [ofString_pointed (last.segments_eq other free.free), List.append_eq,
        namedParts_concat free (isName_iff.1 named).1, List.cons_append]
    · refine ⟨false, namedParts (first :: others), kept, fun other free named => ?_⟩
      rw [ofString_named (last.segments_eq other free.free) (fun empty => absurd empty root) point, List.append_eq,
        ← List.cons_append, namedParts_concat free (isName_iff.1 named).1]

theorem LastSegment.names (last : LastSegment text front name before) (segment : IsSegment name)
    (named : isName name = true) (rooted : current.absolute = true) (settled : ∀ part ∈ current.parts, IsSegment part) :
    ∃ directory, Names current text directory name := by
  obtain ⟨absolute, kept, segments, reads⟩ := last.exists_front
  cases absolute with
  | true =>
    refine ⟨kept, segment, named, segments, fun ending free named => ?_⟩
    rw [last.text_eq, String.append_assoc, reads _ free named]
    rfl
  | false =>
    refine ⟨current.parts ++ kept.filter (· != "."), segment, named, ?_, fun ending free named => ?_⟩
    · intro part member
      rcases List.mem_append.1 member with before | behind
      · exact settled part before
      · exact segments part (List.mem_of_mem_filter behind)
    · have last' : (kept ++ [name ++ ending]).filter (· != ".") = kept.filter (· != ".") ++ [name ++ ending] := by
        rw [List.filter_append, List.filter_cons_of_pos (by simpa using (isName_iff.1 named).1), List.filter_nil]
      have somewhere : current.isEmpty = false := by
        rw [isEmpty, rooted]
        rfl
      rw [last.text_eq, String.append_assoc, reads _ free named, join, if_neg Bool.false_ne_true, somewhere,
        if_neg Bool.false_ne_true, last', rooted, List.append_assoc]

end Path

namespace FileSystem
open Stylesheet.Path

variable {fs after : FileSystem} {place next : Place} {segment text contents : String}

/-- Points lead to a directory, if they lead anywhere. -/
theorem isName_of_step (steps : fs.step place segment = .ok next) (found : ∀ parts, next ≠ .directory parts) :
    isName segment = true := by
  refine isName_iff.2 ⟨?_, ?_⟩ <;> rintro rfl
  · cases place with
    | directory parts =>
      cases steps
      exact found parts rfl
    | file | vacant => cases steps
  · cases place with
    | directory parts =>
      cases steps
      exact found parts.dropLast rfl
    | file | vacant => cases steps

theorem isName_of_walk {segments : List String} (walk : (segments ++ [segment]).foldlM fs.step place = .ok next)
    (found : ∀ parts, next ≠ .directory parts) : isName segment = true := by
  rw [List.foldlM_append] at walk
  cases reached : segments.foldlM fs.step place with
  | error fault =>
    rw [reached] at walk
    cases walk
  | ok between =>
    rw [reached] at walk
    change ([segment].foldlM fs.step between) = .ok next at walk
    rw [List.foldlM_cons] at walk
    cases steps : fs.step between segment with
    | error fault =>
      rw [steps] at walk
      cases walk
    | ok last =>
      rw [steps] at walk
      cases walk
      exact isName_of_step steps found

/-- What is found on a path and is no directory has the name that the path ends in. -/
theorem named_of_locate {front name : String} {before : List String} (last : LastSegment text front name before)
    (located : fs.locate text = .ok next) (found : ∀ parts, next ≠ .directory parts) :
    IsSegment name ∧ isName name = true := by
  have cut : (Text.pieces (· == '/') text.toList).map String.ofList = before ++ [name] := by
    have all := last.segments_eq name last.free
    rwa [← last.text_eq] at all
  unfold locate at located
  split at located
  · cases located
  · split at located
    · cases located
    · next nonempty =>
      dsimp only at located
      rw [cut, List.filter_append] at located
      by_cases empty : name = ""
      · -- A slash at the end asks for a directory.
        subst empty
        have slash : text.endsWith "/" = true := by
          have same : text = front := by rw [last.text_eq, String.append_empty]
          rcases last.front_ends with nothing | ends
          · exact absurd (by rw [same, nothing]; rfl) nonempty
          · rwa [same]
        rw [if_pos slash] at located
        exact absurd (isName_of_walk located found) (by decide)
      · have noSlash : ¬ text.endsWith "/" = true := by
          rw [endsWith_iff]
          rintro ⟨start, same⟩
          have final : (front.toList ++ name.toList).getLast? = some '/' := by
            rw [← String.toList_append, ← last.text_eq, ← same]
            exact List.getLast?_concat
          have chars : name.toList ≠ [] := by simpa using empty
          rw [List.getLast?_append_of_ne_nil _ chars] at final
          exact last.free (List.mem_of_getLast? final)
        rw [if_neg noSlash, List.filter_cons_of_pos (by simpa using empty), List.filter_nil] at located
        exact ⟨⟨empty, last.free⟩, isName_of_walk located found⟩

theorem names_of_write (written : fs.write text contents = .ok after) (settled : ∀ part ∈ fs.current, IsSegment part) :
    ∃ directory name, Names ⟨true, fs.current⟩ text directory name := by
  obtain ⟨front, name, before, last⟩ := exists_lastSegment text
  obtain ⟨segment, named⟩ : IsSegment name ∧ isName name = true := by
    unfold write at written
    split at written
    · next located => exact named_of_locate last located nofun
    · next located => exact named_of_locate last located nofun
    · cases written
    · cases written
  obtain ⟨directory, names⟩ : ∃ directory, Names ⟨true, fs.current⟩ text directory name :=
    last.names segment named rfl settled
  exact ⟨directory, name, names⟩

end FileSystem

namespace Path

variable {directory : List String} {part name : String}

/-- What is longer than a name is a name, too. -/
theorem isSegment_longer {ending : String} (segment : IsSegment name) (free : '/' ∉ ending.toList) :
    IsSegment (name ++ ending) := by
  refine ⟨fun empty => segment.nonempty ?_, ?_⟩
  · rw [← String.toList_inj, String.toList_append] at empty
    rw [← String.toList_inj]
    exact (List.append_eq_nil_iff.1 empty).1
  · rw [String.toList_append, List.mem_append, not_or]
    exact ⟨segment.free, free⟩

theorem isName_of_length (long : 2 < part.length) : isName part = true := by
  refine isName_iff.2 ⟨?_, ?_⟩ <;> rintro rfl <;> exact absurd long (by decide)

theorem Names.source_map {current : Path} {text : String} (names : Names current text directory name) :
    IsSegment (name ++ ".map") ∧ isName (name ++ ".map") = true := by
  refine ⟨isSegment_longer names.segment (by decide), isName_of_length ?_⟩
  rw [String.length_append]
  exact Nat.lt_add_left _ (by decide)

theorem Names.here {current : Path} {text : String} (names : Names current text directory name) :
    current.join (ofString text) = ⟨true, directory ++ [name]⟩ := by
  have nothing := names.longer ""
  rw [String.append_empty, String.append_empty] at nothing
  exact nothing names.segment names.named

theorem relativeParts_within (directory names : List String) : relativeParts directory (directory ++ names) = names := by
  have common : commonLength directory (directory ++ names) = directory.length := by
    induction directory with
    | nil => rfl
    | cons first others later => rw [List.cons_append, commonLength, if_pos rfl, later, List.length_cons]
  unfold relativeParts
  rw [common]
  simp

theorem toString_append (directory : List String) (name ending : String) :
    (⟨true, directory ++ [name]⟩ : Path).toString ++ ending = (⟨true, directory ++ [name ++ ending]⟩ : Path).toString := by
  rw [← String.toList_inj]
  simp only [Path.toString, if_true, String.toList_append, String.toList_intercalate, List.map_append, List.map_cons,
    List.map_nil]
  by_cases empty : directory.map String.toList = []
  · simp [empty]
  · rw [Text.intercalate_concat _ empty, Text.intercalate_concat _ empty]
    simp only [List.append_assoc]

end Path

open Stylesheet.Path

namespace Compiler

variable {compiler : Compiler} {text name : String} {directory : List String}

/-- A source map that stands beside the CSS is named by the name of the CSS with another ending. -/
theorem sourceMapUrl_eq (json : String) (output : compiler.options.outputFile = some text)
    (beside : compiler.options.sourceMapFile = none) (separate : compiler.options.embedSourceMap = false)
    (names : Names compiler.current text directory name) :
    compiler.sourceMapUrl json = name ++ ".map" := by
  obtain ⟨segment, named⟩ := names.source_map
  generalize kept : directory.foldl (stepNormal true) [] = parts
  have outputPath : compiler.outputPath = ⟨true, parts ++ [name]⟩ := by
    rw [Compiler.outputPath, output]
    dsimp only
    rw [rooted, names.here, Path.normalize]
    dsimp only
    rw [List.foldl_append, kept, List.foldl_cons, List.foldl_nil, stepNormal_name names.named]
  have normal : ∀ part ∈ parts, IsSegment part ∧ part ≠ "." := by
    intro part member
    rw [← kept] at member
    refine ⟨?_, ?_⟩
    · rcases mem_of_mem_foldl member with before | inside
      · cases before
      · exact names.segments part inside
    · exact (isName_iff.1 (NormalParts.isName (isNormal_normalize ⟨true, directory⟩) part member)).1
  have spelled : AreSpelled (parts ++ [name ++ ".map"]) := by
    intro part member
    rcases List.mem_append.1 member with before | last
    · exact normal part before
    · rw [List.mem_singleton.1 last]
      exact ⟨segment, (isName_iff.1 named).1⟩
  have again : ofString (⟨true, parts ++ [name ++ ".map"]⟩ : Path).toString = ⟨true, parts ++ [name ++ ".map"]⟩ :=
    ofString_toString spelled
  have mapPath : compiler.sourceMapPath = ⟨true, parts ++ [name ++ ".map"]⟩ := by
    rw [sourceMapPath, beside]
    dsimp only
    rw [outputPath, toString_append, again]
  have around : compiler.directoryOf compiler.outputPath = ⟨true, parts⟩ := by
    rw [outputPath, directoryOf, parent?]
    simp
  rw [sourceMapUrl, separate, if_neg Bool.false_ne_true, mapPath, around, relativeText, again]
  dsimp only
  rw [relativeParts_within]
  simp

/-- The CSS ends in a comment with the address. -/
theorem exists_comment {written : Css.Written} {sources : List Css.Source} {css map : String}
    (finished : (css, some map) = compiler.finish written sources) (shown : compiler.options.omitSourceMapUrl = false) :
    ∃ text json, css = text ++ "/*# sourceMappingURL=" ++ compiler.sourceMapUrl json ++ " */" := by
  unfold finish at finished
  dsimp only at finished
  split at finished
  · rw [shown, if_neg Bool.false_ne_true] at finished
    cases finished
    exact ⟨_, _, rfl⟩
  · cases finished

end Compiler

namespace CommandLine

variable {line : CommandLine} {files after : FileSystem} {stdin path css mapPath map : String} {compiled : Compiled}

/-- How the command compiles: the options are those of the arguments, and the input may have a name. -/
def compiler (line : CommandLine) (files : FileSystem) (input : Option String) : Compiler :=
  { options := { line.options with inputFile := input }, files, hook := none }

theorem compile_finish (succeeds : (line.compile files stdin).result = .ok compiled) :
    ∃ input written sources, (compiled.css, compiled.sourceMap) = (line.compiler files input).finish written sources := by
  unfold compile at succeeds
  split at succeeds
  · next path _ =>
    have compiles : (line.compiler files none).Compiles _ _ _ := .existing path
    obtain ⟨entry, statements, state, finished⟩ := compiles.finished succeeds
    obtain ⟨written, same⟩ := finished.finish_eq
    exact ⟨_, written, _, same⟩
  · have compiles : (line.compiler files line.input).Compiles _ _ _ := .text .created stdin
    obtain ⟨entry, statements, state, finished⟩ := compiles.finished succeeds
    obtain ⟨written, same⟩ := finished.finish_eq
    exact ⟨_, written, _, same⟩

/-- Two files are written where the CSS has an output file and its source map is not in the CSS. -/
theorem compiled_of_writes {outcome : Outcome} (writes : (line.plan outcome).writes = [(path, css), (mapPath, map)]) :
    ∃ compiled, outcome.result = .ok compiled ∧ line.output = some path ∧ line.has .embedSourceMap = false ∧
      compiled.css = css ∧ compiled.sourceMap = some map ∧ mapPath = path ++ ".map" := by
  unfold plan at writes
  cases result : outcome.result with
  | error failure =>
    rw [result] at writes
    cases writes
  | ok compiled =>
    rw [result] at writes
    dsimp only at writes
    cases output : line.output with
    | none =>
      rw [output] at writes
      cases writes
    | some file =>
      rw [output] at writes
      dsimp only at writes
      cases embedded : line.has .embedSourceMap with
      | true =>
        rw [embedded, if_pos rfl] at writes
        cases writes
      | false =>
        rw [embedded, if_neg Bool.false_ne_true] at writes
        cases separate : compiled.sourceMap with
        | none =>
          rw [separate] at writes
          cases writes
        | some json =>
          rw [separate] at writes
          cases writes
          exact ⟨compiled, rfl, rfl, rfl, rfl, separate, rfl⟩

/-- The way from a directory to a target leads to the target, for all normal paths from the root. And wherever the command
writes a file and a source map of its own beside it, the CSS ends in a comment with an address that leads from the
directory of the file to the source map. -/
theorem source_map_address_resolves :
    (∀ base target : Path, base.absolute = true → base.IsNormal → target.absolute = true → target.IsNormal →
      (∀ name ∈ target.parts, IsSegment name) →
      (base.join (ofString (relativeText base target.toString))).normalize = target) ∧
    ∀ (line : CommandLine) (files after : FileSystem) (stdin path css mapPath map : String),
      (∀ part ∈ files.current, IsSegment part) →
      (line.plan (line.compile files stdin)).writes = [(path, css), (mapPath, map)] →
      files.write path css = .ok after → line.has .omitMapComment = false →
      ∃ text url directory, css = text ++ "/*# sourceMappingURL=" ++ url ++ " */" ∧ '/' ∉ url.toList ∧
        ((⟨true, files.current⟩ : Path).join (ofString path)).parent? = some directory ∧
        (directory.join (ofString url)).normalize =
          ((⟨true, files.current⟩ : Path).join (ofString mapPath)).normalize := by
  refine ⟨fun base target rooted normal rooted' normal' => normalize_join_relativeText rooted normal rooted' normal', ?_⟩
  intro line files after stdin path css mapPath map settled writes written shown
  obtain ⟨compiled, succeeds, output, separate, rfl, mapped, rfl⟩ := compiled_of_writes writes
  obtain ⟨input, emitted, sources, finished⟩ := compile_finish succeeds
  obtain ⟨directory, name, names⟩ := FileSystem.names_of_write written settled
  obtain ⟨segment, named⟩ := names.source_map
  rw [mapped] at finished
  obtain ⟨text, json, css_eq⟩ := Compiler.exists_comment finished shown
  have address : (line.compiler files input).sourceMapUrl json = name ++ ".map" :=
    Compiler.sourceMapUrl_eq json output rfl separate names
  rw [address] at css_eq
  have url : ofString (name ++ ".map") = ⟨false, [name ++ ".map"]⟩ := by
    have spelled : AreSpelled [name ++ ".map"] := List.forall_mem_singleton.2 ⟨segment, (isName_iff.1 named).1⟩
    have read := ofString_relative spelled
    rwa [String.intercalate_singleton] at read
  refine ⟨text, name ++ ".map", ⟨true, directory⟩, css_eq, segment.free, ?_, ?_⟩
  · rw [names.here, parent?]
    simp
  · rw [names.longer ".map" segment named, url, join, if_neg Bool.false_ne_true, isEmpty]
    simp [(isName_iff.1 named).1]

/-- The output file is named by a way through another directory. -/
def detourLine : CommandLine :=
  { input := none, output := some "o/../x.css", style := .compressed, precision := 5, sourceMapRoot := none
    indent := "", linefeed := "\n", includePaths := [], switches := [.sourceMap] }

def detourCss : String := "a\x7bb:c\x7d\n/*# sourceMappingURL=x.css.map */"

def detourMap : String :=
  "\x7b\n  \"version\": 3,\n  \"file\": \"x.css\",\n  \"sourceRoot\": \"\",\n  \"sources\": [\n    \"stdin\"\n  ],\n" ++
    "  \"names\": [],\n  \"mappings\": \"AAAA,EAAE\"\n\x7d"

theorem source_map_address_resolves_detour :
    let files := (FileSystem.start ["w"]).addDirectory ["w", "o"]
    (detourLine.plan (detourLine.compile files "a\x7bb:c\x7d")).writes =
        [("o/../x.css", detourCss), ("o/../x.css.map", detourMap)] ∧
      (files.write "o/../x.css" detourCss).isOk = true ∧
      (∃ text url directory, detourCss = text ++ "/*# sourceMappingURL=" ++ url ++ " */" ∧ '/' ∉ url.toList ∧
        ((⟨true, ["w"]⟩ : Path).join (ofString "o/../x.css")).parent? = some directory ∧
        (directory.join (ofString url)).normalize = ⟨true, ["w", "x.css.map"]⟩) ∧
      ((⟨true, ["u", "v"]⟩ : Path).join (ofString (relativeText ⟨true, ["u", "v"]⟩ "/u/w"))).normalize =
        ⟨true, ["u", "w"]⟩ := by
  intro files
  have writes : (detourLine.plan (detourLine.compile files "a\x7bb:c\x7d")).writes =
      [("o/../x.css", detourCss), ("o/../x.css.map", detourMap)] := by
    decide +kernel
  have written : (files.write "o/../x.css" detourCss).isOk = true := by
    have noNul : "o/../x.css".contains '\x00' = false := by simp
    rw [FileSystem.write, FileSystem.locate, noNul]
    decide +kernel
  have settled : ∀ part ∈ files.current, IsSegment part := by
    intro part member
    rw [List.mem_singleton.1 member]
    exact ⟨by decide, by decide⟩
  obtain ⟨resolves, addresses⟩ := source_map_address_resolves
  refine ⟨writes, written, ?_, ?_⟩
  · cases known : files.write "o/../x.css" detourCss with
    | error fault => simp [known, Except.isOk, Except.toBool] at written
    | ok after =>
      obtain ⟨text, url, directory, css, free, here, same⟩ :=
        addresses detourLine files after _ _ _ _ _ settled writes known rfl
      exact ⟨text, url, directory, css, free, here, same.trans (by decide +kernel)⟩
  · have named : ∀ name ∈ ["u", "w"], IsSegment name := by
      simp only [List.forall_mem_cons, List.not_mem_nil, false_implies, implies_true, and_true]
      exact ⟨⟨by decide, by decide⟩, ⟨by decide, by decide⟩⟩
    exact resolves ⟨true, ["u", "v"]⟩ ⟨true, ["u", "w"]⟩ rfl ⟨0, ["u", "v"], rfl, by decide, fun _ => rfl⟩ rfl
      ⟨0, ["u", "w"], rfl, by decide, fun _ => rfl⟩ named

end CommandLine

end Stylesheet
