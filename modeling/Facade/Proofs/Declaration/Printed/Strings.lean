import Facade.Proofs.Declaration.Printed.Restored

/-!
# Strings as types, printed and read again

A string of a file is a type whose text is the string between quotes once more (`Text.quoted`). That
text has escapes of its own, which are not those of a file: it shows a character by its code point
in braces where a file has no escape of more than one character. So a type that is printed and read
again need not be the string it was: `quoted_readBack` says for every string what is read instead,
and that this is the string itself exactly if none of its characters is shown by its code point.
-/

set_option autoImplicit false

namespace Facade

open Facade.Text (byteLength quoted)
open Reader

/-! ### Strings in a file -/

/-- A character as a file may write it between double quotes. -/
def Text.Quoted.written (c : Char) : List Char :=
  if c ∈ ['"', '\\'] then ['\\', c] else if c = '\n' then ['\\', 'n'] else [c]

/-- A string as a file may write it. -/
def Text.inFile (value : String) : String :=
  String.ofList ('"' :: value.toList.flatMap Quoted.written ++ ['"'])

/-- Characters as they are written in a string are read back. -/
theorem readsQuoted_written : ReadsQuoted Text.Quoted.written fun c => [c] := by
  intro c text n
  by_cases hescape : c ∈ ['\\', '\n', '"']
  · simp only [List.mem_cons, List.not_mem_nil, or_false] at hescape
    rcases hescape with rfl | rfl | rfl <;> rfl
  · have hself : Text.Quoted.written c = [c] := by
      simp only [List.mem_cons, List.not_mem_nil, or_false, not_or] at hescape
      simp [Text.Quoted.written, hescape]
    rw [hself]
    exact readQuoted_plain (List.forall_mem_singleton.mpr hescape) text n

/-- Every string can stand in a file. -/
theorem writes_inFile (value : String) (ends : List Char → Prop) :
    Writes (Text.inFile value).toList [.string value] ends := by
  have hwrites := readsQuoted_written.writes value.toList ends
  rw [List.flatMap_singleton', String.ofList_toList] at hwrites
  rwa [Text.inFile, String.toList_ofList]

/-- A text between quotes is one token. -/
theorem ReadsQuoted.scan {write read : Char → List Char} (h : ReadsQuoted write read)
    {text value : String} (htext : text.toList = '"' :: (value.toList.flatMap write ++ ['"'])) :
    Token.scan text
      = .ok [⟨.string (String.ofList (value.toList.flatMap read)), 0, text.utf8ByteSize⟩] := by
  have hstep := h.stepHere value.toList [] 0
  rw [List.append_nil, ← htext, Text.byteLength_toList, Nat.zero_add] at hstep
  have hfirst := Cursor.step_of_stepHere (by decide) (Cursor.startsComment_of_ne (by decide) _)
    hstep
  rw [Token.scan, Cursor.ofText, htext, Cursor.tokens_of_step_some hfirst,
    Cursor.tokens_of_step_none rfl]
  rfl

/-- What a file holds between quotes is read as it was meant. -/
theorem scan_inFile (value : String) :
    Token.scan (Text.inFile value)
      = .ok [⟨.string value, 0, (Text.inFile value).utf8ByteSize⟩] := by
  have htext : (Text.inFile value).toList
      = '"' :: (value.toList.flatMap Text.Quoted.written ++ ['"']) := String.toList_ofList
  have hscan := readsQuoted_written.scan htext
  rwa [List.flatMap_singleton', String.ofList_toList] at hscan

/-! ### A type that is a string -/

/-- What is read without brackets is read as a type. -/
theorem reads_reader_of_primary {lexemes : List Lexeme} {type : TypeExpr}
    (hstarts : StartsType lexemes)
    (h : Reads (primaryType TypeExpr.reader) lexemes type (Off primaryMarks)) :
    Reads TypeExpr.reader lexemes type (Off typeMarks) := by
  have hsuffixed : Reads (suffixedType TypeExpr.reader) lexemes type (Off suffixMarks) := by
    have hread : Reads (suffixedType TypeExpr.reader) (lexemes ++ bracketLexemes 0) type
      (Off suffixMarks) := reads_suffixedType h (.inl rfl)
    rwa [bracketLexemes, List.append_nil] at hread
  have hpart : Reads (intersectionType TypeExpr.reader) lexemes type (Off partMarks) := by
    have hitems : ReadsItems (suffixedType TypeExpr.reader) .ampersand (Off partMarks) [type]
        [lexemes] := .last (hsuffixed.mono fun _ hoff => hoff.mono (by decide))
    have hread := reads_separated rfl suffixedType_regular hitems fun _ hoff =>
      hoff .ampersand (by decide)
    rw [List.intercalate_singleton] at hread
    exact hread.map
  have hitems : ReadsItems (intersectionType TypeExpr.reader) .bar (Off typeMarks) [type]
      [lexemes] := .last (hpart.mono fun _ hoff => hoff.mono (by decide))
  have hread := TypeExpr.reads_reader hitems
  rw [List.intercalate_singleton] at hread
  exact hread hstarts

/-- A string that stands where a type does becomes its quoted text. -/
theorem reads_string (value : String) : Reads (primaryType TypeExpr.reader) [.string value]
    (.literal (quoted value)) fun _ => True :=
  reads_next (reads_skip _).bind_pure

/-- The file with an alias of a string. -/
theorem ofText_alias_string {source value : String}
    (h : Writes source.toList [.string value] fun _ => True) :
    Document.ofText ("type X = " ++ source ++ ";")
      = .ok ⟨[.alias "X" [] (.literal (quoted value))], []⟩ := by
  have hname : IsBindingName "X" := ⟨.name "X", ⟨by decide +kernel, by decide +kernel⟩, rfl⟩
  have hassign : Writes "= ".toList [.mark .assign] fun _ => True :=
    writes_markSpace .assign rfl rfl (by decide) (by decide) (by decide) _
  have hbehind := hassign.behindSpace.join (h.join (writes_semicolon fun _ => True)
    fun _ _ => trivial) fun _ _ => trivial
  have hwrites := (writes_spellingSpace .typeWord fun _ => True).join (hname.writes.join hbehind
    fun rest _ => by rw [String.append_assoc]; exact free_space _ rest) fun _ _ => trivial
  have htext : "type X = " ++ source ++ ";"
      = Word.typeWord.spelling ++ " " ++ ("X" ++ (" " ++ "= " ++ (source ++ ";"))) := by
    simp only [← String.append_assoc]
    rfl
  have hvalue : Reads TypeExpr.reader [.string value] (.literal (quoted value)) (Off typeMarks) :=
    reads_reader_of_primary ⟨_, [], rfl, rfl⟩ ((reads_string value).mono fun _ _ => trivial)
  have hread := fun text => reads_declaration text (by decide) (reads_alias hname
    (reads_typeParameters .nil) (fun heq => by cases heq) hvalue (Reader.declaration text))
  obtain ⟨tokens, hlexemes, htokens⟩ := hwrites [] 0 trivial
  rw [← htext] at htokens
  obtain ⟨first, rest, rfl, hfirst, -⟩ := List.map_eq_cons_iff.mp hlexemes
  exact Document.ofText_of_tokenizes htokens ⟨_, hfirst⟩ (hread _ _ _ hlexemes trivial)

/-! ### Back again -/

/-- The string that is read where a quoted one stands. -/
def Text.readBack (value : String) : String :=
  String.ofList (value.toList.flatMap Quoted.readBack)

/-- Every string can stand in a file, and wherever a type is read there, the type is the quoted
text, which is also how it is printed. That text is one string token again. What it holds is
`readBack` of the string, and so the printed file is read as that. It is the string itself exactly
if no character of the string is shown by its code point. -/
theorem Text.quoted_readBack (value : String) :
    (Token.scan (inFile value) = .ok [⟨.string value, 0, (inFile value).utf8ByteSize⟩]
        ∧ Document.ofText ("type X = " ++ inFile value ++ ";")
          = .ok ⟨[.alias "X" [] (.literal (quoted value))], []⟩)
      ∧ Reads (primaryType TypeExpr.reader) [.string value] (.literal (quoted value))
        (fun _ => True)
      ∧ (TypeExpr.literal (quoted value)).display = quoted value
      ∧ Token.scan (quoted value)
        = .ok [⟨.string (readBack value), 0, (quoted value).utf8ByteSize⟩]
      ∧ Document.ofText (Declaration.alias "X" [] (.literal (quoted value))).display
        = .ok ⟨[.alias "X" [] (.literal (quoted (readBack value)))], []⟩
      ∧ (readBack value = value ↔ ∀ c ∈ value.toList, Quoted.isShort c = true) := by
  have hdisplay : (TypeExpr.literal (quoted value)).display = quoted value := by
    rw [TypeExpr.display]
  have hfile : (Declaration.alias "X" [] (.literal (quoted value))).display
      = "type X = " ++ quoted value ++ ";" := by
    rw [Declaration.display, hdisplay]
    rfl
  refine ⟨⟨scan_inFile value, ofText_alias_string (writes_inFile value _)⟩, reads_string value,
    hdisplay, readsQuoted_encodeChar.scan String.toList_ofList, ?_, ?_⟩
  · rw [hfile]
    exact ofText_alias_string (writes_quoted value _)
  · rw [← flatMap_readBack_eq_self, ← String.toList_inj, readBack, String.toList_ofList]

/-- A control character without a short escape comes back as four others. -/
example : Text.Quoted.readBack '\x01' = "u\x7b1\x7d".toList := by decide +kernel

end Facade
