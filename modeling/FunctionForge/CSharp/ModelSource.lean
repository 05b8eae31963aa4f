import FunctionForge.CSharp.Edition
import FunctionForge.CSharp.Source
import FunctionForge.CSharp.TypeName
import FunctionForge.Text.Words

/-!
# Sources of models

One file for each model: a class with its properties, or an interface. If a class has a date without
a time among its properties, a converter for such dates is added.
-/

namespace FunctionForge.CSharp

open Model (Capability Entity EnumConstant EnumTable InterfaceModel ObjectModel Property)

/-! ### Properties -/

/-- What is said of a property that a payload must have. -/
def requiredClause (property : Property) : String :=
  if !property.isRequired then ""
  else if property.nullable then ", Required = Required.AllowNull"
  else ", Required = Required.Always"

/-- The member of a class for a property. -/
def memberName (property : Property) : String :=
  Naming.identifier property.name

/-- The field behind a property with enumerated values. -/
def fieldName (property : Property) : String :=
  "_" ++ Text.lowerCamel property.name

/-- The type of the constants for enumerated values. -/
def constantType : TypeRef → String
  | .scalar type _ => scalarName type false
  | type => typeName type

/-- The declaration of a constant. Null is no constant of the language. -/
def constantLine (type : TypeRef) (constant : EnumConstant) : String :=
  let declared :=
    if constant.literal = "null" then "public static readonly " ++ typeName type
    else "public const " ++ constantType type
  "        " ++ declared ++ " " ++ constant.name ++ " = " ++ constant.literal ++ ";"

/-- The constants of a property and the field behind it. -/
def enumLines (property : Property) (table : EnumTable) : Source :=
  let type := typeName property.typeRef
  let start := ((initializer? property).map (" = " ++ ·)).getD ""
  ["        // constant values for \"" ++ property.name ++ "\""] ++
    table.constants.map (constantLine property.typeRef) ++
    [ "",
      "        /// <summary>",
      "        /// immutable array containing all allowed values for \"" ++ property.name ++ "\"",
      "        /// </summary>",
      "        public static readonly ImmutableArray<" ++ type ++ "> " ++ table.allowedValuesName ++
        " = ImmutableArray.Create<" ++ type ++ ">(" ++
        Text.join ", " (table.constants.map EnumConstant.name) ++ ");",
      "",
      "        [JsonIgnore]",
      "        private " ++ type ++ " " ++ fieldName property ++ start ++ ";",
      "" ]

/-- A property whose values are checked. -/
def checkedProperty (property : Property) (table : EnumTable) : Source :=
  [ "        public virtual " ++ typeName property.typeRef ++ " " ++ memberName property ++ " \x7b",
    "            get \x7b",
    "                return " ++ fieldName property ++ ";",
    "            \x7d",
    "            set \x7b",
    "                if (!" ++ table.allowedValuesName ++ ".Contains(value))",
    "                \x7b",
    "                    var allowedValues = string.Join(\", \", " ++ table.allowedValuesName ++
      ".Select(v => v == null ? \"null\" : v.ToString()));",
    "                    throw new ArgumentOutOfRangeException(\"" ++ property.name ++ "\",",
    "                        $\"\x7bvalue\x7d is not allowed. " ++
      "Allowed values: [\x7ballowedValues\x7d]\");",
    "                \x7d",
    "                " ++ fieldName property ++ " = value;",
    "            \x7d",
    "        \x7d" ]

/-- A property that takes any value of its type. -/
def openProperty (property : Property) : Source :=
  let start := ((initializer? property).map fun text => " = " ++ text ++ ";").getD ""
  [ "        public virtual " ++ typeName property.typeRef ++ " " ++ memberName property ++
    " \x7b get; set; \x7d" ++ start ]

/-- A property with all that belongs to it. -/
def propertyLines (property : Property) : Source :=
  [""] ++
    ((property.enumTable.map (enumLines property)).getD []) ++
    summaryComment "        " (docLines property.description) ++
    (if property.isDate then ["        [JsonConverter(typeof(CustomJsonDateConverter))]"]
      else []) ++
    ["        [JsonProperty(\"" ++ property.name ++ "\"" ++ requiredClause property ++ ")]"] ++
    ((property.enumTable.map (checkedProperty property)).getD (openProperty property))

/-! ### Classes -/

/-- The namespaces that a capability needs. -/
def capabilityImports : Capability → List String
  | .collections => ["System.Collections.Generic", "System.Linq"]
  | .immutable => ["System.Collections.Immutable", "System.Linq"]
  | .dateConverter => []

/-- The namespaces that a class imports. -/
def objectImports (model : ObjectModel) (target : ModelTarget) : List String :=
  mergeImports [mergeImports (model.capabilities.map capabilityImports), target.imports]

/-- What is said of the parent and the interfaces of a class. -/
def parentsClause (model : ObjectModel) : String :=
  let parents := model.parent.toList ++ model.interfaces
  if parents.isEmpty then "" else " : " ++ Text.join ", " parents

/-- The method that makes a copy. -/
def copyMethod (name : String) : Source :=
  [ "",
    "        public " ++ name ++ " To" ++ name ++ "() \x7b",
    "            var item = new " ++ name ++ "();",
    "            item.UpdateWith" ++ name ++ "(this);",
    "            return item;",
    "        \x7d",
    "" ]

/-- The method that takes over all properties of another instance. -/
def updateMethod (model : ObjectModel) : Source :=
  ["        public void UpdateWith" ++ model.name ++ "(" ++ model.name ++ " other) \x7b"] ++
    model.parent.toList.map (fun parent => "            UpdateWith" ++ parent ++ "(other);") ++
    model.properties.map (fun property =>
      "            " ++ updateStatement (memberName property) property) ++
    ["        \x7d"]

/-- What is said of a method that takes over the properties that are present in `source`. -/
def mergeComment (name source : String) : Source :=
  summaryComment "        "
    [ "Merges all fields of " ++ name ++ " that are present in the passed " ++ source ++
        " with the current object.",
      "If merge settings are not omitted, Arrays will be replaced and null value will replace " ++
        "existing values" ]

/-- The methods that take over the properties that are present. -/
def mergeMethods (name : String) : Source :=
  [""] ++ mergeComment name "object" ++
    [ "        public void MergeWith" ++ name ++ "(" ++ name ++
        " other, JsonMergeSettings mergeSettings = null) \x7b",
      "            MergeWith" ++ name ++ "(JObject.FromObject(other), mergeSettings);",
      "        \x7d",
      "" ] ++
    mergeComment name "JToken" ++
    [ "        public void MergeWith" ++ name ++
        "(JToken other, JsonMergeSettings mergeSettings = null) \x7b",
      "            mergeSettings ??= new JsonMergeSettings()",
      "            \x7b",
      "                MergeArrayHandling = MergeArrayHandling.Replace,",
      "                MergeNullValueHandling = MergeNullValueHandling.Merge",
      "            \x7d;",
      "            var sourceObject = JObject.FromObject(this);",
      "            sourceObject.Merge(other, mergeSettings);",
      "            UpdateWith" ++ name ++ "(sourceObject.ToObject<" ++ name ++ ">());",
      "        \x7d" ]

/-- The source of a class. Its first edition has no methods that merge. -/
def objectSource (model : ObjectModel) (target : ModelTarget) : Source :=
  let merges := edition target.version .model = .base
  header (fromSchema model.rawName) ++
    ["using System;", "using Newtonsoft.Json;"] ++
    (if merges then ["using Newtonsoft.Json.Linq;"] else []) ++
    usings (objectImports model target) ++
    ["", "namespace " ++ target.rootNamespace ++ " \x7b"] ++
    summaryComment "    " (docLines model.description) ++
    [ "    [JsonObject(MemberSerialization.OptIn)]",
      "    public partial class " ++ model.name ++ parentsClause model ++ " \x7b",
      "        public const string " ++ model.name ++ "ObjectName = \"" ++ model.rawName ++
        "\";" ] ++
    model.properties.flatMap propertyLines ++
    copyMethod model.name ++
    (if merges then
      summaryComment "        " ["Replaces all fields with the data of the passed object"]
    else []) ++
    updateMethod model ++
    (if merges then mergeMethods model.name else []) ++
    ["    \x7d", "\x7d"]

/-! ### Interfaces and converters -/

/-- The source of an interface. -/
def interfaceSource (model : InterfaceModel) (target : ModelTarget) : Source :=
  header (fromSchema model.rawName) ++
    ["using System;", "using Newtonsoft.Json;"] ++
    usings target.imports ++
    ["", "namespace " ++ target.rootNamespace ++ " \x7b"] ++
    summaryComment "    " (docLines model.description) ++
    ["    /// Known implementations, selected by \"" ++ model.discriminator ++ "\":"] ++
    List.map (fun (value, child) => "    ///   \"" ++ value ++ "\" => " ++ child) model.mapping ++
    [ "    public partial interface " ++ model.name ++ " \x7b",
      "        string " ++ model.discriminator ++ " \x7b get; \x7d",
      "    \x7d",
      "\x7d" ]

/-- The name of the converter for dates without a time. -/
def dateConverter : String := "CustomJsonDateConverter"

/-- The source of the converter for dates without a time. -/
def dateConverterSource (target : ModelTarget) : Source :=
  header "" ++
    [ "using Newtonsoft.Json.Converters;",
      "",
      "namespace " ++ target.rootNamespace ++ " \x7b",
      "    /// <summary>",
      "    /// Serializes date-only values as yyyy-MM-dd.",
      "    /// </summary>",
      "    public class CustomJsonDateConverter : IsoDateTimeConverter",
      "    \x7b",
      "        public CustomJsonDateConverter()",
      "        \x7b",
      "            DateTimeFormat = \"yyyy-MM-dd\";",
      "        \x7d",
      "    \x7d",
      "\x7d" ]

/-! ### Files -/

/-- The source of a model. -/
def entitySource (entity : Entity) (target : ModelTarget) : Source :=
  match entity with
  | .object model => objectSource model target
  | .interface model => interfaceSource model target

/-- Whether a model needs the converter for dates. -/
def needsDateConverter (entity : Entity) : Bool :=
  (entity.object?.map fun model => model.capabilities.contains .dateConverter).getD false

/-- The files of models. -/
def modelFiles (entities : List Entity) (target : ModelTarget) : List GeneratedFile :=
  entities.map (fun entity => outputFile target.folder entity.name (entitySource entity target)) ++
    if entities.any needsDateConverter then
      [outputFile target.folder dateConverter (dateConverterSource target)]
    else []

end FunctionForge.CSharp
