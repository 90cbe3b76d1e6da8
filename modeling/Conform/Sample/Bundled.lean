import Conform.Members

/-!
The texts of the samples and of their schemas.
-/

namespace Conform.Sample.Bundled

/-- A text of these lines, each with its line break. -/
def ofLines (lines : List String) : String := String.join (lines.map (· ++ "\n"))

def validPerson : String := ofLines [
  "\x7b",
  "  \"name\": \"Amy Chen\",",
  "  \"age\": 34,",
  "  \"email\": \"amy@example.com\",",
  "  \"role\": \"editor\",",
  "  \"score\": 4.5,",
  "  \"active\": true,",
  "  \"tags\": [\"design\", \"ops\"],",
  "  \"address\": \x7b",
  "    \"street\": null,",
  "    \"city\": \"Portland\",",
  "    \"zip\": \"97201\"",
  "  \x7d",
  "\x7d"]

def invalidPerson : String := ofLines [
  "\x7b",
  "  \"name\": \"\",",
  "  \"age\": -3,",
  "  \"email\": \"not-an-email\",",
  "  \"role\": \"owner\",",
  "  \"score\": 4.2,",
  "  \"active\": \"yes\",",
  "  \"tags\": [\"x\", 7],",
  "  \"address\": \x7b",
  "    \"zip\": \"ABCDE\",",
  "    \"country\": \"US\"",
  "  \x7d,",
  "  \"nickname\": \"ace\"",
  "\x7d"]

def personSchema : String := ofLines [
  "\x7b",
  "  \"$schema\": \"http://json-schema.org/draft-07/schema#\",",
  "  \"title\": \"Person\",",
  "  \"type\": \"object\",",
  "  \"required\": [\"name\", \"age\", \"email\"],",
  "  \"properties\": \x7b",
  "    \"name\": \x7b\"type\": \"string\", \"minLength\": 1, \"maxLength\": 100\x7d,",
  "    \"age\": \x7b\"type\": \"integer\", \"minimum\": 0, \"maximum\": 150\x7d,",
  "    \"email\": \x7b\"type\": \"string\", " ++
    "\"pattern\": \"^[^@\\\\s]+@[^@\\\\s]+\\\\.[^@\\\\s]+$\"\x7d,",
  "    \"role\": \x7b\"type\": \"string\", \"enum\": [\"admin\", \"editor\", \"viewer\"]\x7d,",
  "    \"score\": \x7b\"type\": \"number\", \"exclusiveMinimum\": 0, \"multipleOf\": 0.5\x7d,",
  "    \"active\": \x7b\"type\": \"boolean\"\x7d,",
  "    \"tags\": \x7b",
  "      \"type\": \"array\",",
  "      \"minItems\": 1,",
  "      \"maxItems\": 5,",
  "      \"items\": \x7b\"type\": \"string\", \"minLength\": 2\x7d",
  "    \x7d,",
  "    \"address\": \x7b",
  "      \"type\": \"object\",",
  "      \"required\": [\"city\"],",
  "      \"properties\": \x7b",
  "        \"street\": \x7b\"type\": \"string\"\x7d,",
  "        \"city\": \x7b\"type\": \"string\"\x7d,",
  "        \"zip\": \x7b\"type\": \"string\", \"pattern\": \"^\\\\d\x7b5\x7d$\"\x7d",
  "      \x7d,",
  "      \"additionalProperties\": false",
  "    \x7d",
  "  \x7d,",
  "  \"additionalProperties\": false",
  "\x7d"]

def validConfig : String := ofLines [
  "title = \"TOML Example\"",
  "log_level = \"info\"",
  "",
  "[owner]",
  "name = \"Tom Preston-Werner\"",
  "dob = 1979-05-27T07:32:00-08:00",
  "",
  "[database]",
  "enabled = true",
  "ports = [8000, 8001, 8002]",
  "connection_max = 5000",
  "ratio = 0.75",
  "backup_date = 2024-01-15",
  "backup_time = \"03:30:00\""]

def invalidConfig : String := ofLines [
  "title = \"\"",
  "log_level = \"verbose\"",
  "",
  "[owner]",
  "dob = \"last spring\"",
  "",
  "[database]",
  "enabled = \"yes\"",
  "ports = [8000, 70000]",
  "connection_max = 0",
  "ratio = 1.5",
  "backup_date = \"15/01/2024\""]

def configSchema : String := ofLines [
  "\x7b",
  "  \"type\": \"table\",",
  "  \"required\": [\"title\", \"owner\", \"database\"],",
  "  \"properties\": \x7b",
  "    \"title\": \x7b\"type\": \"string\", \"minLength\": 1\x7d,",
  "    \"owner\": \x7b",
  "      \"type\": \"table\",",
  "      \"required\": [\"name\"],",
  "      \"properties\": \x7b",
  "        \"name\": \x7b\"type\": \"string\"\x7d,",
  "        \"dob\": \x7b\"type\": \"dateTime\"\x7d",
  "      \x7d",
  "    \x7d,",
  "    \"database\": \x7b",
  "      \"type\": \"table\",",
  "      \"required\": [\"ports\"],",
  "      \"properties\": \x7b",
  "        \"enabled\": \x7b\"type\": \"boolean\"\x7d,",
  "        \"ports\": \x7b\"type\": \"array\", \"minItems\": 1, " ++
    "\"items\": \x7b\"type\": \"integer\", \"minimum\": 1, \"maximum\": 65535\x7d\x7d,",
  "        \"connection_max\": \x7b\"type\": \"integer\", \"minimum\": 1\x7d,",
  "        \"ratio\": \x7b\"type\": \"float\", \"exclusiveMaximum\": 1.0\x7d,",
  "        \"backup_date\": \x7b\"type\": \"date\"\x7d,",
  "        \"backup_time\": \x7b\"type\": \"time\"\x7d",
  "      \x7d",
  "    \x7d,",
  "    \"log_level\": \x7b\"type\": \"string\", " ++
    "\"enum\": [\"debug\", \"info\", \"warning\", \"error\"]\x7d",
  "  \x7d",
  "\x7d"]

def files : Members String := [
  ("valid-person.json", validPerson),
  ("invalid-person.json", invalidPerson),
  ("sample-schema.json", personSchema),
  ("valid-config.toml", validConfig),
  ("invalid-config.toml", invalidConfig),
  ("config-schema.json", configSchema)]

end Conform.Sample.Bundled
