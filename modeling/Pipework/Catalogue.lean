import Pipework.Pipeline.Basic

set_option autoImplicit false

/-! # The catalogue

The steps and pipelines that every cookbook may start from: one step for each built-in transform
under its name, three more that are `hash` with the name of an algorithm bound, and a few ready
pipelines. -/

namespace Pipework.Catalogue

/-! ## Steps -/

/-- A built-in transform as a step without arguments. -/
def plain (name : String) (builtin : Builtin) : Step Transform :=
  .ofTransform name (.builtin builtin)

/-- A digest as a step whose name is that of the algorithm and bound to it. -/
def digest (algorithm : String) : Step Transform :=
  (plain algorithm .hash).withPositional [.text algorithm]

/-- The steps, in the order of registration. -/
def steps : List (Step Transform) :=
  [plain "cast_to_str" .castToText, plain "cast_to_bytes" .castToBytes,
    plain "str_to_bytes" .textToBytes, plain "bytes_to_str" .bytesToText,
    plain "numbers_to_str" .numbersToText,
    plain "hex_to_bytes" .hexToBytes, plain "bytes_to_hex" .bytesToHex,
    plain "bytes_to_b64" .bytesToBase64, plain "b64_to_bytes" .base64ToBytes,
    plain "urlencode" .percentEncode, plain "urldecode" .percentDecode,
    plain "json_to_str" .valueToJson, plain "str_to_json" .jsonToValue,
    plain "int_to_octet" .intToOctet, plain "octet_to_int" .octetToInt,
    plain "bytes_to_ints" .bytesToInts, plain "ints_to_bytes" .intsToBytes,
    plain "hash" .hash, digest "sha256", digest "sha384", digest "sha512",
    plain "derive_key" .deriveKey, plain "derive_key_record" .deriveKeyRecord,
    plain "aead_encrypt" .aeadEncrypt, plain "aead_decrypt" .aeadDecrypt,
    plain "secret_encrypt" .secretEncrypt, plain "secret_decrypt" .secretDecrypt]

/-- The names of the steps. -/
def stepNames : List String := steps.map (·.name)

/-- The step of that name. -/
def step? (name : String) : Option (Step Transform) := steps.find? (·.name = name)

/-! ## Recipes -/

/-- A pipeline of the catalogue. -/
structure Recipe where
  name : String
  steps : List (Step Transform)

/-- The pipeline that a recipe describes, under the name of the recipe. -/
def Recipe.pipeline (recipe : Recipe) : Pipeline Transform :=
  ⟨some recipe.name, recipe.steps.map .step⟩

/-- The recipes, in the order of registration. -/
def recipes : List Recipe :=
  [{ name := "urlencoded"
     steps := [plain "numbers_to_str" .numbersToText, plain "urlencode" .percentEncode] },
    { name := "to_urlencoded_b64_string"
      steps :=
        [plain "cast_to_bytes" .castToBytes, plain "bytes_to_b64" .bytesToBase64,
          plain "urlencode" .percentEncode] },
    { name := "sha256_hex"
      steps :=
        [(plain "str_to_bytes" .textToBytes).withPositional [.text "utf8"], digest "sha256",
          plain "bytes_to_hex" .bytesToHex] }]

/-- The names of the recipes. -/
def recipeNames : List String := recipes.map (·.name)

/-- The pipeline of the recipe of that name. -/
def recipe? (name : String) : Option (Pipeline Transform) :=
  (recipes.find? (·.name = name)).map Recipe.pipeline

end Pipework.Catalogue
