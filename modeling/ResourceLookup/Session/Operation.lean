import ResourceLookup.Loader.Config
import ResourceLookup.Properties.Source
import ResourceLookup.Registry.Objects
import ResourceLookup.Report
import ResourceLookup.Store.Write
import ResourceLookup.Value

/-!
# Operations on a store

What an application can ask of a store, and what it is answered. The objects that operations
speak about belong to the application, which also lets them come into being, change their type
and die.
-/

namespace ResourceLookup

/-- What an application can do with a store. -/
inductive Operation where
  | create (typeName : Text)
  | setType (o : ObjectId) (typeName : Text)
  | drop (o : ObjectId)
  | describe (o : ObjectId)
  | resolve (key : Text)
  | resolveRelative (o : ObjectId) (key : Text)
  | insert (key : Text) (value : Value)
  | insertList (key : Text) (values : List Text)
  | insertRelative (o : ObjectId) (key : Text) (value : Value)
  | insertPairs (pairs : List (Text × Value))
  | readResources (source : Source)
  | register (name : Text) (o : ObjectId)
  | registerChild (name : Text) (o parent : ObjectId)
  | unregister (o : ObjectId)
  | unregisterAll
  | reset
  | lookupName (o : ObjectId)
  | lookupObject (name : Text)
  | dump (below : Option Text)
  | writeResources (header : Option Text) (sink : Sink)
  | summary
  | isValidKey (key : Text)
  | isValidName (name : Text)
  | fetchInt (key : Text) (default : Int64)
  | fetchFloat (key : Text) (default : Float)
  | fetchBool (key : Text) (default : Bool)
  | loadFiles (name : Text)
  | loadFile (name : Text)
  | locate (name : Text)
  | loaderConfig

/-- What an operation is answered if it does not fail. -/
inductive Reply where
  | done
  | created (o : ObjectId)
  | value (value : Option Value)
  | report (report : Report)
  | text (text : Text)
  | name (name : Option Text)
  | object (o : Option ObjectId)
  | flag (value : Bool)
  | integer (value : Int64)
  | float (value : Float)
  | config (config : LoaderConfig)

end ResourceLookup
