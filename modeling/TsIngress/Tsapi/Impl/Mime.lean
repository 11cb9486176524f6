import TsIngress.Basic

/-!
This module contains the header functions of Traffic Server that the sources call. A header is the list of
its fields, a field has a list of comma separated values, and the location of a field is its index.
-/

structure MimeField where
  name : Str
  values : List Str
  deriving DecidableEq

abbrev MimeHdr := List MimeField

-- Field names are compared without regard to case.
def MimeField.named (field : MimeField) (name : String) : Bool :=
  field.name.map tolower == (str name).map tolower

def tsMimeHdrFieldFind (hdr : MimeHdr) (name : String) : Option Nat :=
  hdr.findIdx? (·.named name)

def tsMimeHdrFieldValues (hdr : MimeHdr) (field : Nat) : List Str :=
  ((hdr[field]?).map MimeField.values).getD []

def tsMimeHdrFieldValueStringGet (hdr : MimeHdr) (field idx : Nat) : Option Str :=
  (tsMimeHdrFieldValues hdr field)[idx]?

def tsMimeHdrFieldValuesSet (hdr : MimeHdr) (field : Nat) (values : List Str) : MimeHdr :=
  hdr.modify field fun f => { f with values := values }

def tsMimeHdrFieldRemove (hdr : MimeHdr) (field : Nat) : MimeHdr :=
  hdr.eraseIdx field

def tsMimeHdrFieldAppend (hdr : MimeHdr) (name : String) (value : Str) : MimeHdr :=
  hdr ++ [⟨str name, [value]⟩]
