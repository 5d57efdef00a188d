import Packetry.Artifact
import Packetry.Template

/-!
# The standard templates

What an artifact, or the schema, starts from unless the user has a template for it. Each
template of an artifact has its region, which is empty but for that of the enumeration, where
the enumerator for no packet stands already.
-/

namespace Packetry.Template

/-- The template of lines, each a list of pieces. -/
def ofLines (lines : List (List Block)) : Template :=
  lines.flatMap (· ++ [.text "\n"])

/-! ### Holes -/

/-- The session class. -/
def sessionClass : Block := .print (.lookup ["session_class"])

/-- The namespace around the registrations for dispatch. -/
def registerNamespace : Block := .print (.lookup ["register_namespace"])

/-- The key under which the schema lists the packets. -/
def schemaKey : Block := .print (.lookup ["schema_key"])

/-- The line that opens the region. -/
def regionBegin : List Block := [.print (.lookup ["region", "begin"])]

/-- The line that closes the region. -/
def regionEnd : List Block := [.print (.lookup ["region", "end"])]

/-- The line that includes a file of a known name. -/
def includes (file : String) : List Block :=
  [.text s!"#include \"{file}\""]

/-- The line that includes the file that a value names. -/
def includesNamed (name : String) : List Block :=
  [.text "#include \"", .print (.lookup [name]), .text "\""]

/-! ### Artifacts -/

/-- The enumeration starts with its first enumerator. -/
def enumerationFile : Template := ofLines [
  [.text "#pragma once"],
  [],
  [.text "enum class PACKET_ID : unsigned int"],
  [.text "\x7b"],
  regionBegin,
  [.text "\tINVALID_PACKET_ID = 0"],
  regionEnd,
  [.text "\x7d;"]]

/-- The line of slashes around a heading. -/
def rule : List Block :=
  [.text (String.ofList (List.replicate 84 '/'))]

/-- The lines of a function that carries its parameters over a buffer: the first one, and
then, if there are more of them, the others. -/
def carrier (name operator : String) : List (List Block) := [
  [.text "template<typename T>"],
  [.text s!"void {name}(NetBuffer& buffer, T& param)"],
  [.text "\x7b"],
  [.text s!"\tbuffer {operator} param;"],
  [.text "\x7d"],
  [],
  [.text "template<typename T, typename... Args>"],
  [.text s!"void {name}(NetBuffer& buffer, T& param, Args&... argList)"],
  [.text "\x7b"],
  [.text s!"\tbuffer {operator} param;"],
  [.text s!"\t{name}(buffer, argList...);"],
  [.text "\x7d"],
  []]

/-- The classes start with the functions that carry members over a buffer. -/
def classFile : Template := ofLines <|
  [[.text "#pragma once"],
    [],
    [.text "#include <string>"],
    includes "NetServerSerializeBuffer.h",
    includes "PacketManager.h",
    includesNamed "packet_id_header",
    [],
    rule,
    [.text "// Serialization helpers"],
    rule,
    []] ++
  carrier "SetBufferToParameters" ">>" ++
  carrier "SetParametersToBuffer" "<<" ++
  [rule,
    [.text "// Packet"],
    rule,
    [],
    [.text "#pragma pack(push, 1)"],
    regionBegin,
    regionEnd,
    [.text "#pragma pack(pop)"]]

/-- The member functions start with nothing. -/
def methodFile : Template := ofLines [
  includes "PreCompile.h",
  includesNamed "protocol_header",
  [],
  regionBegin,
  regionEnd]

/-- The registrations for dispatch start with nothing, in a function in a namespace. -/
def registrationFile : Template := ofLines [
  includes "PreCompile.h",
  includesNamed "protocol_header",
  includes "PacketHandlerUtil.h",
  [],
  [.text "namespace ", registerNamespace],
  [.text "\x7b"],
  [.text "\tvoid Init()"],
  [.text "\t\x7b"],
  regionBegin,
  regionEnd,
  [.text "\t\x7d"],
  [.text "\x7d"]]

/-- The declarations of handlers start with nothing, at the end of the class. -/
def declarationFile : Template := ofLines [
  [.text "#pragma once"],
  includes "RUDPSession.h",
  includesNamed "protocol_header",
  [],
  [.text "class ", sessionClass, .text " final : public RUDPSession"],
  [.text "\x7b"],
  [.text "public:"],
  [.text "\t", sessionClass, .text "() = delete;"],
  [.text "\t~", sessionClass, .text "() override = default;"],
  [.text "\texplicit ", sessionClass, .text "(MultiSocketRUDPCore& inCore);"],
  [],
  [.text "private:"],
  [.text "\tvoid RegisterAllPacketHandler();"],
  [],
  [.text "private:"],
  regionBegin,
  regionEnd,
  [.text "\x7d;"]]

/-- The definitions of handlers start with nothing. -/
def stubFile : Template := ofLines [
  includes "PreCompile.h",
  includesNamed "session_header",
  [],
  regionBegin,
  regionEnd]

/-- The registrations of handlers start with nothing, in a member function of the class. -/
def bindingFile : Template := ofLines [
  includes "PreCompile.h",
  includesNamed "packet_id_header",
  includesNamed "session_header",
  [],
  [.text "void ", sessionClass, .text "::RegisterAllPacketHandler()"],
  [.text "\x7b"],
  regionBegin,
  regionEnd,
  [.text "\x7d"]]

/-- The schema starts without packets. -/
def schemaFile : Template := ofLines [
  [schemaKey, .text ":"]]

/-! ### All templates -/

/-- The name of the template that the schema starts from. -/
def schemaName : String :=
  "schema.yml.tera"

/-- The standard template of an artifact. -/
def standard : Artifact → Template
  | .packetId => enumerationFile
  | .protocolHeader => classFile
  | .protocolSource => methodFile
  | .packetRegister => registrationFile
  | .sessionHeader => declarationFile
  | .sessionSource => stubFile
  | .sessionRegister => bindingFile

end Packetry.Template
