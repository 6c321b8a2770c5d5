import Intake.Reading.Record

namespace Intake

structure FileInfo where
  name : String
  mimeType : String
  size : UInt64
  deriving DecidableEq

namespace FileInfo

def fields : FieldReader (String × String × UInt64) :=
  (FieldReader.required "name").and
    ((FieldReader.required "type").and (FieldReader.required "size"))

instance : Readable FileInfo where
  read v := (fun (name, mimeType, size) => ⟨name, mimeType, size⟩) <$> fields.read "FileInfo" v

def ofJson? (v : Json) : Option FileInfo := (read v : Except ReadError FileInfo).toOption

def toJson (f : FileInfo) : Json :=
  .object [("name", .string f.name), ("type", .string f.mimeType),
    ("size", .number (.whole (.ofUInt64 f.size)))]

end FileInfo

end Intake
