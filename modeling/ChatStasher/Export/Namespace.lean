import ChatStasher.Delivery.Host
import ChatStasher.Provenance.ObservationLog

/-! The namespace of raw export objects: its names, its directories and its index rows. -/
namespace ChatStasher.Export
open Deletion (textLines)
open GrokBot (decodeUtf8)
open Inbox (Text trim utf8)

section Labels

def platformMaxLen : ℕ := 64

def exportNameMaxLen : ℕ := 255

/-- `validate_platform`: why a platform label is not usable. -/
def validatePlatform (platform : Text) : Option String :=
  if platform = [] then some "it is empty"
  else if platformMaxLen < (utf8 platform).length then some "it is longer than 64 bytes"
  else if !platform.all (fun c => c.isLower || c.isDigit || c == '.' || c == '_' || c == '-') then
    some "a platform label may contain only lowercase letters, digits, `.`, `_` and `-`"
  else if !(platform.head?.any fun c => c.isAlphanum) then
    some "it must start with a letter or a digit"
  else none

/-- `validate_delivered_name`: why a name cannot be kept as one visible path component. -/
def validateDeliveredName (name : Text) : Option String :=
  if name = [] then some "it is empty"
  else if exportNameMaxLen < (utf8 name).length then some "it is longer than 255 bytes"
  else if name = ['.'] ∨ name = ['.', '.'] then
    some "it would name a directory rather than an object"
  else if name.head? = some '.' then
    some "a hidden name would be invisible to this namespace's own reader"
  else if '/' ∈ name ∨ '\\' ∈ name then some "it would name more than one path component"
  else if name.any Delivery.isControl then some "it carries a control character"
  else none

def machineUsable (machine : Text) : Bool :=
  !(decide (machine = [] ∨ machine = ['.'] ∨ machine = ['.', '.'] ∨ '/' ∈ machine ∨ '\\' ∈ machine))

def visible (name : Text) : Bool := name.head? != some '.'

def tempName (deliveredName : Text) : Text := '.' :: (deliveredName ++ ".tmp".toList)

lemma visible_of_validateDeliveredName {name : Text} (h : validateDeliveredName name = none) :
    visible name = true := by
  unfold validateDeliveredName at h
  split_ifs at h with _ _ _ hhidden
  simpa [visible] using hhidden

@[simp] lemma visible_tempName (name : Text) : visible (tempName name) = false := rfl

end Labels

section Directory

/-- What the presence check makes of a directory: no object, the name of its one object, or an
error where there are several. -/
inductive HeldObject
  | absent
  | held (name : Text)
  | several
  deriving DecidableEq

/-- `held_object`. -/
def heldObject (entries : List (Text × ℕ)) : HeldObject :=
  match entries.filter fun e => visible e.1 with
  | [] => .absent
  | [e] => .held e.1
  | _ => .several

end Directory

section Index
variable {D : Type}

inductive Representation
  | api
  | decoded
  | exported
  deriving DecidableEq

inductive Fidelity
  | raw
  | full (representation : Representation)
  | partly (note : Text)
  | unknown (reason : Text)
  deriving DecidableEq

/-- One archived export object, as recorded in the index. -/
structure ExportFileRow (D : Type) where
  schema : Text
  machine : Text
  platform : Text
  contentSha256 : D
  bytes : ℕ
  fidelity : Fidelity
  deriving DecidableEq

def exportIndexSchema : Text := "chat-stasher/export-file@1".toList

/-- How index rows are written to single lines without surrounding blanks. -/
structure IndexFormat (D : Type) extends RowFormat (ExportFileRow D) where
  trimmed : ∀ row, trim (write row) = write row

inductive ExportIndexState (D : Type)
  | missing
  | empty
  | loaded (rows : List (ExportFileRow D))

def ExportIndexState.rows : ExportIndexState D → List (ExportFileRow D)
  | .missing => []
  | .empty => []
  | .loaded rows => rows

def RowUsable (machine : Text) (row : ExportFileRow D) : Prop :=
  row.schema = exportIndexSchema ∧ row.machine = machine ∧ row.bytes ≠ 0 ∧ row.fidelity = .raw

instance (machine : Text) (row : ExportFileRow D) : Decidable (RowUsable machine row) :=
  inferInstanceAs (Decidable (_ ∧ _))

variable (F : IndexFormat D)

/-- `read_export_index`; `none` is an index that holds anything but usable rows. -/
def readExportIndex (machine : Text) : Option Bytes → Option (ExportIndexState D)
  | none => some .missing
  | some content =>
    (decodeUtf8 content).bind fun text =>
      let lines := ((textLines text).map trim).filter fun line => !line.isEmpty
      (lines.mapM fun line => (F.read line).filter fun row => RowUsable machine row).map fun rows =>
        if rows = [] then .empty else .loaded rows

def indexedRows (content : Bytes) : List (ExportFileRow D) :=
  (completeLines content).1.filterMap fun line => (decodeUtf8 line).bind F.read

variable {F} {machine : Text} {rows : List (ExportFileRow D)}

lemma readExportIndex_log (h : ∀ row ∈ rows, RowUsable machine row) {content : Option Bytes}
    (hcontent : content.getD [] = F.log rows) :
    (readExportIndex F machine content).map ExportIndexState.rows = some rows := by
  have hlog : ((F.log rows) = [] → rows = []) := by
    intro hnil
    cases rows with
    | nil => rfl
    | cons row rows =>
      have hlen := congrArg List.length hnil
      simp [RowFormat.log, sealFramedLines] at hlen
  cases content with
  | none => rw [hlog hcontent.symm]; rfl
  | some content =>
    obtain rfl : content = F.log rows := hcontent
    have htrim : (rows.map F.write).map trim = rows.map F.write := by
      rw [List.map_map]
      exact List.map_congr_left fun row _ => F.trimmed row
    have hlines : (rows.map F.write).filter (fun line => !line.isEmpty) = rows.map F.write := by
      refine List.filter_eq_self.mpr fun line hline => ?_
      obtain ⟨row, -, rfl⟩ := List.mem_map.mp hline
      have := @RowFormat.trim_write_ne_nil _ F.toRowFormat row
      rw [F.trimmed] at this
      rw [this, Bool.not_false]
    have hread : (rows.map F.write).mapM (fun line =>
        (F.read line).filter fun row => RowUsable machine row) = some rows := by
      rw [Traverse.mapM_eq_some_iff, List.forall₂_map_left_iff, List.forall₂_same]
      intro row hrow
      rw [F.read_write]
      exact Option.filter_some_pos (by simpa using h row hrow)
    unfold readExportIndex
    dsimp only
    rw [RowFormat.log_eq, GrokBot.decodeUtf8_utf8, Option.bind_some, F.textLines_render, htrim,
      hlines, hread, Option.map_some, Option.map_some]
    split
    next hnil => rw [hnil]; rfl
    next => rfl

lemma indexedRows_log {tail : Bytes} (ht : newline ∉ tail) :
    indexedRows F (F.log rows ++ tail) = rows := by
  have hlines : (completeLines (F.log rows ++ tail)).1 = rows.map F.bytes := by
    refine congrArg Prod.fst (Framing.completeRecords_frame newline (fun line hline => ?_) ht)
    obtain ⟨row, -, rfl⟩ := List.mem_map.mp hline
    exact RowFormat.newline_notMem_bytes row
  rw [indexedRows, hlines, List.filterMap_map]
  refine (List.filterMap_congr fun row _ => ?_).trans List.filterMap_some
  rw [Function.comp_apply, RowFormat.bytes, GrokBot.decodeUtf8_utf8, Option.bind_some, F.read_write]

end Index

section Json
open TextCodec

def hexDigit (n : ℕ) : Char := Char.ofNat (if n < 10 then n + 48 else n + 87)

def hexDigest (bytes : Bytes) : Text :=
  bytes.flatMap fun byte => [hexDigit (byte.toNat / 16), hexDigit (byte.toNat % 16)]

def unhex : Text → Bytes
  | high :: low :: rest => UInt8.ofNat (16 * hexValue high + hexValue low) :: unhex rest
  | _ => []

lemma unhex_hexDigest (bytes : Bytes) : unhex (hexDigest bytes) = bytes := by
  have hdigit : ∀ n < 16, hexValue (hexDigit n) = n := by decide
  induction bytes with
  | nil => rfl
  | cons byte bytes ih =>
    have hhigh := hdigit (byte.toNat / 16) (by have := byte.toNat_lt; omega)
    have hlow := hdigit (byte.toNat % 16) (by omega)
    show UInt8.ofNat (16 * hexValue (hexDigit _) + hexValue (hexDigit _)) :: unhex (hexDigest bytes) = _
    rw [hhigh, hlow, Nat.div_add_mod, UInt8.ofNat_toNat, ih]

lemma trim_braced {text : Text} (hfirst : text.head? = some '\x7b')
    (hlast : text.getLast? = some '\x7d') : trim text = text := by
  obtain ⟨rest, rfl⟩ : ∃ rest, text = '\x7b' :: rest := by
    cases text with
    | nil => cases hfirst
    | cons c rest => exact ⟨rest, by rw [Option.some.inj hfirst]⟩
  have hbrace : Inbox.isWhitespace '\x7b' = false := by decide
  obtain ⟨front, hfront⟩ := List.getLast?_eq_some_iff.mp hlast
  rw [trim, Inbox.trimMatches, List.dropWhile_cons_of_neg (by simp [hbrace]), hfront,
    List.rdropWhile_concat_neg _ _ _ (by decide)]

def fidelityOf : Text × Option Text → Fidelity
  | (value, some detail) =>
    if value = "full".toList then
      .full (if detail = "api".toList then .api else if detail = "decoded".toList then .decoded
        else .exported)
    else if value = "partial".toList then .partly detail
    else .unknown detail
  | (_, none) => .raw

def fidelityMembers : Fidelity → Text × Option Text
  | .raw => ("raw".toList, none)
  | .full .api => ("full".toList, some "api".toList)
  | .full .decoded => ("full".toList, some "decoded".toList)
  | .full .exported => ("full".toList, some "export".toList)
  | .partly note => ("partial".toList, some note)
  | .unknown reason => ("unknown".toList, some reason)

lemma fidelityOf_fidelityMembers (fidelity : Fidelity) :
    fidelityOf (fidelityMembers fidelity) = fidelity := by
  cases fidelity with
  | raw => rfl
  | full representation => cases representation <;> rfl
  | partly note => rfl
  | unknown reason => rfl

def digestCodec : Codec Bytes := stringCodec.imap unhex hexDigest unhex_hexDigest

lemma selfDelimiting_digest : digestCodec.SelfDelimiting := selfDelimiting_stringCodec.imap _ _ _

def fidelityCodec : Codec (Text × Option Text) :=
  (stringCodec.andThen selfDelimiting_stringCodec
    (stringCodec.optional ",\"detail\":".toList '\x7d' isDigit_closeBrace (by decide)
      (by decide))).preceded "\"fidelity\":".toList

def sizeCodec : Codec (ℕ × Text × Option Text) :=
  ((Codec.natural.closed ',' isDigit_comma).andThen selfDelimiting_numberComma
    fidelityCodec).preceded ",\"bytes\":".toList

def platformCodec : Codec (Text × Bytes × ℕ × Text × Option Text) :=
  (stringCodec.andThen selfDelimiting_stringCodec ((digestCodec.andThen selfDelimiting_digest
    sizeCodec).preceded ",\"content_sha256\":".toList)).preceded ",\"platform\":".toList

def exportRowCodec : Codec (ExportFileRow Bytes) :=
  ((stringCodec.andThen selfDelimiting_stringCodec ((stringCodec.andThen selfDelimiting_stringCodec
    platformCodec).preceded ",\"machine\":".toList)).preceded "\x7b\"schema\":".toList).imap
      (fun x => ⟨x.1, x.2.1, x.2.2.1, x.2.2.2.1, x.2.2.2.2.1, fidelityOf x.2.2.2.2.2⟩)
      (fun row => (row.schema, row.machine, row.platform, row.contentSha256, row.bytes,
        fidelityMembers row.fidelity))
      fun row => by rw [fidelityOf_fidelityMembers]

lemma selfDelimiting_size : sizeCodec.SelfDelimiting :=
  ((Codec.selfDelimiting_closed _ _).andThen ((selfDelimiting_stringCodec.andThen
    (Codec.selfDelimiting_optional _ _ _ _ _)).preceded _)).preceded _

lemma selfDelimiting_exportRow : exportRowCodec.SelfDelimiting :=
  ((selfDelimiting_stringCodec.andThen ((selfDelimiting_stringCodec.andThen
    ((selfDelimiting_stringCodec.andThen ((selfDelimiting_digest.andThen
      selfDelimiting_size).preceded _)).preceded _)).preceded _)).preceded _).imap _ _ _

lemma avoids_size : sizeCodec.Avoids '\n' :=
  (((Codec.avoids_natural (by decide)).closed _ (by decide)).andThen _
    ((avoids_stringCodec.andThen _ (avoids_stringCodec.optional (by decide) (by decide) _ _
      _)).preceded (by decide))).preceded (by decide)

lemma avoids_exportRow : exportRowCodec.Avoids '\n' :=
  ((avoids_stringCodec.andThen _ ((avoids_stringCodec.andThen _ ((avoids_stringCodec.andThen _
    (((avoids_stringCodec.imap _ _ _).andThen _ avoids_size).preceded (by decide))).preceded
      (by decide))).preceded (by decide))).preceded (by decide)).imap _ _ _

lemma endsWith_exportRow : exportRowCodec.EndsWith '\x7d' :=
  (((((((((((((Codec.endsWith_optional _ _ _ _ _).andThen _ _).preceded _).andThen _ _).preceded
    _).andThen _ _).preceded _).andThen _ _).preceded _).andThen _ _).preceded _).andThen _
      _).preceded _).imap _ _ _

def exportIndexJson : IndexFormat Bytes where
  toRowFormat := .ofCodec exportRowCodec selfDelimiting_exportRow avoids_exportRow endsWith_exportRow
  trimmed row := trim_braced rfl (endsWith_exportRow row)

end Json

end ChatStasher.Export
