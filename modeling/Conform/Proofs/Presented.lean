import Conform.Engine
import Conform.Proofs.Text.Utf8
import Conform.Toml.Reader

/-!
The ways to hand over a text. It may come as a text, as its bytes, or as its bytes behind a
byte-order mark. Unless the text itself begins with the mark, it is decoded from all of them, so
nothing that comes of it tells them apart: no value, no message with its position, no interruption.
-/

namespace Conform

variable {t u : String} {src src' document document' schema schema' : Source} {role : Role}

namespace Source

inductive Presents (t : String) : Source → Prop where
  | text : Presents t (.text t)
  | bytes : Presents t (.bytes t.toUTF8.data.toList)
  | marked : Presents t (.bytes (Text.Utf8.mark ++ t.toUTF8.data.toList))

def Unmarked (t : String) : Prop := t.toList.head? ≠ some '\ufeff'

instance (t : String) : Decidable (Unmarked t) := inferInstanceAs (Decidable (_ ≠ _))

lemma decode_bytes_of_withoutMark {bs : List UInt8}
    (h : Text.Utf8.withoutMark bs = Text.Utf8.encode t.toList) :
    (bytes bs).decode role = .ok t.toList := by
  rw [decode, h, Text.Utf8.decode_encode]

/-- However a text is handed over, it is what is decoded. -/
lemma Presents.decode_eq (h : src.Presents t) (ht : Unmarked t) :
    src.decode role = .ok t.toList := by
  cases h with
  | text => rfl
  | bytes =>
    rw [← Text.Utf8.encode_toList]
    exact decode_bytes_of_withoutMark (Text.Utf8.withoutMark_encode ht)
  | marked =>
    rw [← Text.Utf8.encode_toList]
    exact decode_bytes_of_withoutMark (Text.Utf8.withoutMark_mark _)

end Source

lemma Source.readJson_congr (h : src.decode role = src'.decode role) :
    src.readJson role = src'.readJson role := by
  rw [readJson, readJson, h]

lemma Dialect.readDocument_congr [Toml.Decoder] (d : Dialect)
    (h : src.decode .document = src'.decode .document) : d.readDocument src = d.readDocument src' := by
  cases d with
  | json =>
    simp only [readDocument, Document.readJson]
    rw [Source.readJson_congr h]
  | toml =>
    simp only [readDocument, Document.readToml]
    rw [h]

lemma Schema.read_congr (h : src.decode .schema = src'.decode .schema) :
    Schema.read src = Schema.read src' := by
  rw [Schema.read, Schema.read, Source.readJson_congr h]

namespace Engine

variable {e : Engine} {d : Dialect}

lemma validate_congr [Toml.Decoder] (hd : document.decode .document = document'.decode .document)
    (hs : schema.decode .schema = schema'.decode .schema) :
    e.validate d document schema = e.validate d document' schema' := by
  have hread : read d document schema = read d document' schema' := by
    rw [read, read, d.readDocument_congr hd, Schema.read_congr hs]
  rw [validate, validate, hread]

/-- **Bytes and text agree**: a document and a schema that do not begin with the byte-order mark are
decoded as the same texts in whichever way each is handed over, and validated alike: with the same
outcome, or the same interruption. -/
theorem validate_presented [Toml.Decoder] (ht : Source.Unmarked t) (hu : Source.Unmarked u)
    (hd : document.Presents t) (hd' : document'.Presents t) (hs : schema.Presents u)
    (hs' : schema'.Presents u) :
    document.decode .document = .ok t.toList ∧ schema.decode .schema = .ok u.toList ∧
      e.validate d document schema = e.validate d document' schema' :=
  ⟨hd.decode_eq ht, hs.decode_eq hu,
    validate_congr ((hd.decode_eq ht).trans (hd'.decode_eq ht).symm)
      ((hs.decode_eq hu).trans (hs'.decode_eq hu).symm)⟩

/-- A misplaced comma behind characters of two, three and four bytes, in bytes with a mark and as a
text: the positions count characters, and not the mark. -/
theorem validate_presented_positions :
    let t := "[\"é€😀\",\n,1]"
    let u := "\x7b\x7d"
    let bytes : List UInt8 := [0xef, 0xbb, 0xbf, 0x5b, 0x22, 0xc3, 0xa9, 0xe2, 0x82, 0xac, 0xf0,
      0x9f, 0x98, 0x80, 0x22, 0x2c, 0x0a, 0x2c, 0x31, 0x5d]
    let message := "Document parsing error: Expecting value: line 2 column 1 (char 8)"
    Source.Unmarked t ∧ Source.Unmarked u ∧ (Source.bytes bytes).Presents t ∧
      (Source.bytes [0x7b, 0x7d]).Presents u ∧
      standard.validate .json (.bytes bytes) (.bytes [0x7b, 0x7d]) =
        standard.validate .json (.text t) (.text u) ∧
      (standard.validate .json (.text t) (.text u)).toOption.map Outcome.findings =
        some [.parseError message] := by
  intro t u bytes message
  have ht : Source.Unmarked t := by decide +kernel
  have hu : Source.Unmarked u := by decide +kernel
  have hbytes : bytes = Text.Utf8.mark ++ t.toUTF8.data.toList := by decide +kernel
  have hschema : [0x7b, 0x7d] = u.toUTF8.data.toList := by decide +kernel
  have hd : (Source.bytes bytes).Presents t := hbytes ▸ .marked
  have hs : (Source.bytes [0x7b, 0x7d]).Presents u := hschema ▸ .bytes
  exact ⟨ht, hu, hd, hs, (validate_presented ht hu hd .text hs .text).2.2, by decide +kernel⟩

end Engine

end Conform
