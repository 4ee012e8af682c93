import OptionAtlas.Builder

/-!
# The standard registry

The flags of the command line of a configuration language: four catalogs and the
six commands that draw on them.

## Main definitions

* `Standard.catalogs`, `Standard.recipes` — the declarations.
* `Standard.built`, `Standard.registry` — the catalogs and the registry built from them.
-/

namespace OptionAtlas.Standard

/-- A flag that has a long name only. -/
def long (key name : String) : Catalog.Declaration := ⟨key, name, none⟩

/-- A flag that has a short name too. -/
def both (key name short : String) : Catalog.Declaration := ⟨key, name, some short⟩

/-- Flags of single commands. -/
def general : List Catalog.Declaration :=
  [both "OUTPUT_PATH" "--output-path" "-o",
   long "MODULE_OUTPUT_SEPARATOR" "--module-output-separator",
   both "EXPRESSION" "--expression" "-x",
   both "MULTIPLE_FILE_OUTPUT_PATH" "--multiple-file-output-path" "-m",
   long "SKIP_PUBLISH_CHECK" "--skip-publish-check",
   long "TEST_MODE" "--test-mode",
   long "NO_TRANSITIVE" "--no-transitive"]

/-- Options of every command that evaluates modules. -/
def base : List Catalog.Declaration :=
  [long "ALLOWED_MODULES" "--allowed-modules",
   long "ALLOWED_RESOURCES" "--allowed-resources",
   long "ROOT_DIR" "--root-dir",
   long "CACHE_DIR" "--cache-dir",
   both "WORKING_DIR" "--working-dir" "-w",
   both "PROPERTY" "--property" "-p",
   long "COLOR" "--color",
   long "NO_CACHE" "--no-cache",
   both "FORMAT" "--format" "-f",
   both "ENV_VAR" "--env-var" "-e",
   long "MODULE_PATH" "--module-path",
   long "SETTINGS" "--settings",
   both "TIMEOUT" "--timeout" "-t",
   long "CA_CERTIFICATES" "--ca-certificates",
   long "HTTP_PROXY" "--http-proxy",
   long "HTTP_NO_PROXY" "--http-no-proxy",
   long "EXTERNAL_MODULE_READER" "--external-module-reader",
   long "EXTERNAL_RESOURCE_READER" "--external-resource-reader",
   long "TEST_PORT" "--test-port"]

/-- Project discovery. -/
def project : List Catalog.Declaration :=
  [long "PROJECT_DIR" "--project-dir",
   long "OMIT_PROJECT_SETTINGS" "--omit-project-settings",
   long "NO_PROJECT" "--no-project"]

/-- Test reports. -/
def test : List Catalog.Declaration :=
  [long "JUNIT_REPORTS" "--junit-reports",
   long "OVERWRITE" "--overwrite"]

/-- The catalogs in declaration order. -/
def catalogs : List (String × List Catalog.Declaration) :=
  [("general", general), ("base", base), ("project", project), ("test", test)]

/-- The commands in declaration order. -/
def recipes : List Recipe :=
  [⟨"eval", ["general", "base", "project"], []⟩,
   ⟨"test", ["base", "project", "test"], []⟩,
   ⟨"repl", ["base", "project"], []⟩,
   ⟨"project resolve", ["base"], []⟩,
   ⟨"project package", ["base", "test"],
    [⟨"general", "OUTPUT_PATH"⟩, ⟨"general", "SKIP_PUBLISH_CHECK"⟩]⟩,
   ⟨"download-package", ["base"], [⟨"general", "NO_TRANSITIVE"⟩]⟩]

/-- The standard catalogs, each built flag by flag. -/
def built : List (Except Defect Catalog) :=
  catalogs.map fun c => ((Catalog.Builder.start c.1).flagAll c.2).build

/-- The standard catalogs and commands. -/
def registry : Except Defect Registry := do
  let b := (← built.mapM id).foldl Registry.Builder.catalog .empty
  (recipes.foldl Registry.Builder.command b).build

end OptionAtlas.Standard
