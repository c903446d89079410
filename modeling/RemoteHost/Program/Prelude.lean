import RemoteHost.Program.Source

/-!
# The prelude

The program that prepares the host for a session: it defines the handle table and the helpers that
later programs call. It is a template whose markers are replaced by the names of the settings.
-/

namespace RemoteHost.Program

/-- The version of the agreement between the programs and the host-side helpers. -/
def protocolVersion : String := "1.0.0"

/-- The lines of the prelude, with a marker for each value filled in. -/
def preludeLines : List String :=
  [ "import json",
    "import socket",
    "import threading",
    "import uuid",
    "",
    "try:",
    "    @TABLE@",
    "except NameError:",
    "    @TABLE@ = \x7b\x7d",
    "",
    "",
    "def __hostlink_store(obj):",
    "    key = uuid.uuid4().hex",
    "    @TABLE@[key] = obj",
    "    return key",
    "",
    "",
    "def __hostlink_is_primitive(value):",
    "    if value is None or isinstance(value, (bool, int, float, str)):",
    "        return True",
    "    if isinstance(value, (list, tuple)):",
    "        return all(__hostlink_is_primitive(item) for item in value)",
    "    if isinstance(value, dict):",
    "        return all(isinstance(k, str) and __hostlink_is_primitive(v) for k, v in value.items())",
    "    return False",
    "",
    "",
    "def __hostlink_wrap(value):",
    "    if value is None:",
    "        return \x7b\"kind\": \"none\"\x7d",
    "    if __hostlink_is_primitive(value):",
    "        return \x7b\"kind\": \"primitive\", \"value\": value\x7d",
    "    return \x7b\"kind\": \"handle\", \"key\": __hostlink_store(value)\x7d",
    "",
    "",
    "def @ENVELOPE@(thunk, shape):",
    "    try:",
    "        value = thunk()",
    "    except Exception as err:",
    "        return \x7b\"kind\": \"error\", \"message\": \"%s: %s\" % (type(err).__name__, err)\x7d",
    "    if value is None:",
    "        return \x7b\"kind\": \"none\"\x7d",
    "    if shape == \"handle_list\":",
    "        return \x7b\"kind\": \"primitive\", \"value\": [__hostlink_store(item) for item in value]\x7d",
    "    if shape in (\"handle\", \"optional_handle\"):",
    "        return \x7b\"kind\": \"handle\", \"key\": __hostlink_store(value)\x7d",
    "    if __hostlink_is_primitive(value):",
    "        return \x7b\"kind\": \"primitive\", \"value\": value\x7d",
    "    return \x7b\"kind\": \"error\", \"message\": \"result of type %s is not a primitive\" % type(value).__name__\x7d",
    "",
    "",
    "def @CALLBACK@(token, *args):",
    "    payload = __hostlink_wrap(args[0] if len(args) == 1 else (list(args) or None))",
    "",
    "    def send():",
    "        with socket.create_connection((@HOST@, int(token))) as conn:",
    "            conn.sendall((json.dumps(payload) + \"\\n\").encode(\"utf-8\"))",
    "",
    "    threading.Thread(target=send, daemon=True).start()",
    "",
    "",
    "@RESULT@ = \x7b\"kind\": \"primitive\", \"value\": @VERSION@\x7d" ]

/-- The prelude with its markers. Every line ends in a line break. -/
def preludeTemplate : List Char :=
  preludeLines.flatMap fun line => line.toList ++ ['\n']

/-- The markers with the values that replace them, in the order of replacement. -/
def preludeValues (s : Settings) : List (String × String) :=
  [("@TABLE@", s.handleTable), ("@ENVELOPE@", s.envelopeHelper),
    ("@CALLBACK@", s.callbackHelper), ("@RESULT@", s.resultSlot),
    ("@HOST@", Literal.quoted s.callbackHost), ("@VERSION@", Literal.quoted protocolVersion)]

def replaceMarkers (values : List (String × String)) (text : List Char) : List Char :=
  values.foldl (fun t v => Text.replaceAll v.1.toList v.2.toList t) text

def prelude (s : Settings) : String :=
  String.ofList (replaceMarkers (preludeValues s) preludeTemplate)

end RemoteHost.Program
