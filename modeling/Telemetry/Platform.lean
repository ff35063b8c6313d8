import Telemetry.Config.PluginConfig
import Telemetry.Metric.Basic

/-!
# Platforms

A platform is what an agent runs on: kinds of plugins and a world they act
in. Plugins are made by name. A collector lists its catalog and collects
metrics, a processor replaces metrics, an analyzer derives metrics, and each
of them may change itself. A publisher changes the world.
-/

set_option autoImplicit false

namespace Telemetry

structure Platform where
  World : Type
  Collector : Type
  Processor : Type
  Analyzer : Type
  Publisher : Type
  now : World → Timestamp
  collector : String → Except ConfigError Collector
  processor : String → Except ConfigError Processor
  analyzer : String → Except ConfigError Analyzer
  publisher : String → Except ConfigError Publisher
  catalog : World → Collector → PluginConfig → Except PluginError (List Metric) × Collector
  collect : World → Collector → List Metric → Except PluginError (List Metric) × Collector
  process : World → Processor → List Metric → PluginConfig →
    Except PluginError (List Metric) × Processor
  analyze : World → Analyzer → List Metric → PluginConfig →
    Except PluginError (List Metric) × Analyzer
  publish : World → Publisher → List Metric → PluginConfig → Except PluginError Unit × World

end Telemetry
